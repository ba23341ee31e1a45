import ClassAtlas.ClassIndex.Basic
import ClassAtlas.FileTree
import ClassAtlas.Module

/-!
# Scans

A scan reads one part of a classpath and finds the classes in it: the compiled classes
of an archive or a class directory, or the sources of a source archive.  The classes of
an archive belong to the dependency that the archive is named for.
-/

namespace ClassAtlas

/-- The parts of a classpath that are scanned. -/
inductive ScanKind where
  | archive
  | directory
  | sources
  deriving DecidableEq, Repr

/-- A part of a classpath to be scanned. -/
structure Scan where
  kind : ScanKind
  path : Path
  deriving DecidableEq, Repr

/-- A fact found by a scan: that there is a class, or that a package belongs to a
dependency. -/
inductive Finding where
  | holds (name : ClassName)
  | owned (package owner : String)
  deriving DecidableEq, Repr

/-- The index with one more fact. -/
def ClassIndex.add (index : ClassIndex) : Finding → ClassIndex
  | .holds name => index.insert name
  | .owned package owner => index.claim package owner

namespace Scan

def classSuffix : List Char := ".class".toList

def sourceSuffix : List Char := ".java".toList

/-- The ending of the entries that the scan looks for. -/
def suffix (scan : Scan) : List Char :=
  match scan.kind with
  | .sources => sourceSuffix
  | _ => classSuffix

/-- The dependency that the classes belong to. -/
def owner? (scan : Scan) : Option String :=
  match scan.kind with
  | .archive => ArchiveName.dependencyName? scan.path
  | _ => none

/-- The names of the files in an archive; an entry that ends in a separator is a
directory. -/
def archiveFiles? (files : FileTree) (path : Path) : Option (List (List Char)) :=
  (files.archiveEntries? path).map fun entries =>
    (entries.map String.toList).filter fun entry => entry.getLast? != some '/'

/-- The names of the files below a directory. -/
def directoryFiles? (files : FileTree) (path : Path) : Option (List (List Char)) :=
  (files.filesBelow? path).map fun names =>
    names.map fun segments => ("/".intercalate segments).toList

/-- The names of the files that the scan looks at, unless it cannot read them. -/
def names? (files : FileTree) (scan : Scan) : Option (List (List Char)) :=
  match scan.kind with
  | .directory => directoryFiles? files scan.path
  | _ => archiveFiles? files scan.path

/-- The classes that the scan finds, unless it cannot read its part of the classpath. -/
def classes? (files : FileTree) (scan : Scan) : Option (List ClassName) :=
  (scan.names? files).map fun names => names.filterMap (ClassName.ofEntry? scan.suffix)

/-- What a scan with this owner says of a class. -/
def findingsOf (owner : Option String) (name : ClassName) : List Finding :=
  .holds name :: (owner.map (.owned name.package)).toList

/-- All that the scan finds; nothing when it cannot read its part of the classpath. -/
def findings (files : FileTree) (scan : Scan) : List Finding :=
  ((scan.classes? files).getD []).flatMap (findingsOf scan.owner?)

/-- The scans for the compiled classes of a module: its archives, each once, and then the
directories of its classpath. -/
def ofModule (files : FileTree) (module : Module) : List Scan :=
  let listed := module.classpath.filter fun path =>
    !files.isDirectory path && ArchiveName.isArchive path
  (Path.distinct (module.classpathArchives ++ listed)).map (⟨.archive, ·⟩) ++
    (module.classpath.filter files.isDirectory).map (⟨.directory, ·⟩)

/-- The scans for the sources of a module. -/
def sourcesOfModule (module : Module) : List Scan :=
  module.sourceArchives.map (⟨.sources, ·⟩)

end Scan
end ClassAtlas
