import ClassAtlas.FileTree
import ClassAtlas.Module

/-!
# Local repositories

A local repository holds the archives of dependencies in a directory for each group,
artifact and version.  Hydrating a module notes the archives found for its
dependencies, and lists those of the visible ones on its classpath.
-/

namespace ClassAtlas

/-- A local repository, given by its root. -/
structure Repository where
  root : Path
  deriving DecidableEq, Repr

namespace Repository

/-- The types of archives that carry classes. -/
def archiveTypes : List String := ["jar", "test-jar", "bundle", "ejb", "maven-plugin"]

/-- The dependency has a version and a type of archive that carries classes. -/
def carriesClasses (dependency : Dependency) : Bool :=
  dependency.version != unknownVersion && archiveTypes.contains dependency.type

/-- The directory of one version of an artifact. -/
def versionDirectory (repository : Repository) (dependency : Dependency) : Path :=
  ((repository.root.join dependency.groupPath.text).join dependency.artifact).join
    dependency.version

/-- Where the archive of a dependency belongs. -/
def artifactPath (repository : Repository) (dependency : Dependency) : Path :=
  (repository.versionDirectory dependency).join dependency.archiveName

/-- Where the source archive of a dependency belongs. -/
def sourcesPath (repository : Repository) (dependency : Dependency) : Path :=
  (repository.versionDirectory dependency).join dependency.sourcesName

/-- The archive of a dependency, if it is there.  A dependency on the system has the
path that it declares. -/
def locate (files : FileTree) (repository : Repository) (dependency : Dependency) :
    Option Path :=
  if dependency.scope == .system then
    (dependency.systemPath.map Path.mk).filter files.isFile
  else if carriesClasses dependency then
    (some (repository.artifactPath dependency)).filter files.isFile
  else none

/-- The source archive of a dependency, if it is there. -/
def locateSources (files : FileTree) (repository : Repository) (dependency : Dependency) :
    Option Path :=
  if carriesClasses dependency && dependency.scope != .system then
    (some (repository.sourcesPath dependency)).filter files.isFile
  else none

/-- The dependency with the archive found for it. -/
def withArchive (files : FileTree) (repository : Repository) (dependency : Dependency) :
    Dependency :=
  match repository.locate files dependency with
  | some path => { dependency with archive := some path }
  | none => dependency

/-- The dependencies that are visible to a module. -/
def visible (module : Module) : List Dependency :=
  module.dependencies.filter (·.scope.isVisibleIn module.scope)

/-- The archives of the visible dependencies, each once. -/
def archives (files : FileTree) (repository : Repository) (module : Module) : List Path :=
  Path.distinct ((visible module).filterMap (repository.locate files))

/-- The source archives of the visible dependencies whose archive is there, each once. -/
def sources (files : FileTree) (repository : Repository) (module : Module) : List Path :=
  Path.distinct (((visible module).filter fun dependency =>
    (repository.locate files dependency).isSome).filterMap (repository.locateSources files))

/-- The module with the archives found in the repository.  For the test scope the
directory of test classes is part of the classpath. -/
def hydrate (files : FileTree) (repository : Repository) (module : Module) : Module :=
  let archives := repository.archives files module
  { module.toDraft with
    localRepository := some repository.root
    dependencies := module.dependencies.map (repository.withArchive files)
    classpath := Path.distinct (module.classpath ++
      (if module.scope == .test then [module.testOutputDirectory] else []) ++ archives)
    classpathArchives := archives
    sourceArchives := repository.sources files module
    : Module.Draft }.build

/-- The visible dependencies that should have an archive and have none here. -/
def missing (files : FileTree) (repository : Repository) (module : Module) :
    List Dependency :=
  (visible module).filter fun dependency =>
    (carriesClasses dependency || dependency.scope == .system) &&
      (repository.locate files dependency).isNone

end Repository

def descriptorName : String := "pom.xml"

/-- The nearest descriptor in or above a directory, or the directory of a file. -/
def findDescriptor? (files : FileTree) (start : Path) : Option Path := do
  let first ← if files.isFile start then start.parent? else some start
  (first.ancestors.map (·.join descriptorName)).find? files.isFile

end ClassAtlas
