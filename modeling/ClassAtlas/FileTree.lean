import ClassAtlas.Path

/-!
# File trees

A file tree is a snapshot of the files that a run can see, with the directory in
which it runs and those in which commands are looked for.  A path is followed through
the tree one segment after another, and each failure to follow it, or to read or start
what it leads to, has its own cause.
-/

namespace ClassAtlas

/-- Why something could not be read or started. -/
inductive ReadError where
  | absent
  | notDirectory
  | isDirectory
  | notPermitted
  | nameTooLong
  | zeroInName
  | notText
  | notExecutable
  deriving DecidableEq, Repr

/-- The system's words for a failure, with its number. -/
def ReadError.message : ReadError → String
  | .absent => "No such file or directory (os error 2)"
  | .notExecutable => "Exec format error (os error 8)"
  | .notPermitted => "Permission denied (os error 13)"
  | .notDirectory => "Not a directory (os error 20)"
  | .isDirectory => "Is a directory (os error 21)"
  | .nameTooLong => "File name too long (os error 36)"
  | .zeroInName => "file name contained an unexpected NUL byte"
  | .notText => "stream did not contain valid UTF-8"

/-- The search for a command goes on after such a failure. -/
def ReadError.isPassedOver : ReadError → Bool
  | .absent | .notPermitted | .notDirectory => true
  | _ => false

namespace FileTree

/-- What an executable does when it is started. -/
structure Tool where
  output : String := ""
  errorOutput : String := ""
  status : Nat := 0
  /-- Prints each of its arguments on a line first. -/
  echoesArguments : Bool := false
  /-- How long it runs in milliseconds, unless it never ends. -/
  runningTime : Option Nat := some 0
  /-- Is ended by a signal, and so has no status. -/
  isKilled : Bool := false
  deriving DecidableEq, Repr

/-- The tool ends before so many seconds are over. -/
def Tool.endsWithin (tool : Tool) (seconds : Nat) : Bool :=
  tool.runningTime.any (· < 1000 * seconds)

/-- The contents of a file as far as they matter. -/
structure File where
  /-- The text, when the bytes are one. -/
  text : Option String := none
  /-- The names of the entries, when the file is an archive. -/
  archive : Option (List String) := none
  /-- What it does when it is started, or why it cannot be. -/
  tool : Except ReadError Tool := .error .notPermitted
  deriving Repr

/-- What stands at a place. -/
inductive Entry where
  | directory
  | file (file : File)
  deriving Repr

/-- The names that lead from the root to a place. -/
abbrev Place := List String

end FileTree

open FileTree in
/-- The files that can be seen, and the directory from which relative paths start. -/
structure FileTree where
  workingDirectory : Place
  entries : List (Place × Entry)
  /-- The directories in which commands are looked for, in this order. -/
  commandDirectories : List Path := []
  deriving Repr

namespace FileTree

/-- The place that a path names, seen from another place. -/
def placeOf (start : Place) (path : Path) : Place :=
  path.components.foldl (fun place component =>
    match component with
    | .root => []
    | .current => place
    | .parent => place.dropLast
    | .name text => place ++ [text]) start

/-- The file tree with entries at these paths. -/
def ofList (workingDirectory : Place) (entries : List (Path × Entry))
    (commandDirectories : List Path := []) : FileTree where
  workingDirectory
  entries := entries.map fun (path, entry) => (placeOf workingDirectory path, entry)
  commandDirectories

/-- The entry at a place.  Whatever lies above an entry or the working directory is a
directory. -/
def entryAt? (files : FileTree) (place : Place) : Option Entry :=
  match files.entries.lookup place with
  | some entry => some entry
  | none =>
      if place.isPrefixOf files.workingDirectory ||
          files.entries.any (fun (other, _) => place.isPrefixOf other) then
        some .directory
      else none

/-- The longest name of a file, and the longest path, in bytes. -/
def longestName : Nat := 255

@[inherit_doc longestName]
def longestPath : Nat := 4095

/-- Follows the segments of a path from a place with a given entry. -/
def follow (files : FileTree) (place : Place) (entry : Entry) :
    List String → Except ReadError (Place × Entry)
  | [] => .ok (place, entry)
  | segment :: rest =>
      match entry with
      | .file _ => .error .notDirectory
      | .directory =>
          if segment == "" || segment == "." then follow files place entry rest
          else if segment == ".." then follow files place.dropLast .directory rest
          else if segment.utf8ByteSize > longestName then .error .nameTooLong
          else
            match files.entryAt? (place ++ [segment]) with
            | some next => follow files (place ++ [segment]) next rest
            | none => .error .absent

/-- The place to which a path leads, and what stands there. -/
def find (files : FileTree) (path : Path) : Except ReadError (Place × Entry) :=
  if path.text.isEmpty then .error .absent
  else if path.text.toList.contains '\x00' then .error .zeroInName
  else if path.text.utf8ByteSize > longestPath then .error .nameTooLong
  else
    files.follow (if path.isAbsolute then [] else files.workingDirectory) .directory
      ((path.text.toList.splitOn '/').map String.ofList)

def isPresent (files : FileTree) (path : Path) : Bool :=
  match files.find path with
  | .ok _ => true
  | .error _ => false

def isFile (files : FileTree) (path : Path) : Bool :=
  match files.find path with
  | .ok (_, .file _) => true
  | _ => false

def isDirectory (files : FileTree) (path : Path) : Bool :=
  match files.find path with
  | .ok (_, .directory) => true
  | _ => false

/-- The file to which a path leads. -/
def read (files : FileTree) (path : Path) : Except ReadError File :=
  match files.find path with
  | .ok (_, .file file) => .ok file
  | .ok (_, .directory) => .error .isDirectory
  | .error cause => .error cause

def readText (files : FileTree) (path : Path) : Except ReadError String :=
  match files.read path with
  | .ok file => match file.text with
      | some text => .ok text
      | none => .error .notText
  | .error cause => .error cause

def toolAt (files : FileTree) (path : Path) : Except ReadError Tool :=
  match files.find path with
  | .ok (_, .file file) => file.tool
  | .ok (_, .directory) => .error .notPermitted
  | .error cause => .error cause

/-- Looks for a command in one directory after another, up to a failure that says more
than that it cannot be run there.  When it can be run nowhere, a missing permission is the
cause that is named, else the last one. -/
def searchCommand (files : FileTree) (name : String) (cause : ReadError) :
    List Path → Except ReadError Tool
  | [] => .error cause
  | directory :: others =>
      match files.toolAt (directory.join name) with
      | .ok tool => .ok tool
      | .error next =>
          if next.isPassedOver then
            searchCommand files name (if cause == .notPermitted then cause else next) others
          else .error next

/-- The tool that an executable names: a name without a separator is a command. -/
def command (files : FileTree) (executable : Path) : Except ReadError Tool :=
  if executable.text.toList.contains '/' then files.toolAt executable
  else if executable.text.isEmpty then .error .absent
  else files.searchCommand executable.text .absent files.commandDirectories

/-- The names of the entries of the archive to which a path leads. -/
def archiveEntries? (files : FileTree) (path : Path) : Option (List String) :=
  match files.read path with
  | .ok file => file.archive
  | .error _ => none

/-- The names that lead to each of the files below the place to which a path leads; a
file is reached from itself by no name. -/
def filesBelow? (files : FileTree) (path : Path) : Option (List (List String)) :=
  match files.find path with
  | .ok (place, _) =>
      some (files.entries.filterMap fun (other, entry) =>
        match entry with
        | .file _ => place.isPrefixOf? other
        | .directory => none)
  | .error _ => none

/-- The same files seen from the directory to which a path leads. -/
def startingAt (files : FileTree) (directory : Path) : FileTree :=
  match files.find directory with
  | .ok (place, .directory) => { files with workingDirectory := place }
  | _ => files

/-- The working directory as an absolute path. -/
def workingPath (files : FileTree) : Path :=
  ⟨"/" ++ "/".intercalate files.workingDirectory⟩

end FileTree
end ClassAtlas
