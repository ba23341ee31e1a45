import ClassAtlas.Dependency

/-!
# Resolved modules

A module is the outcome of resolving a build descriptor: its identity, its
directories, its dependencies and the archives found for them.  A draft holds what
has been said about a module so far; `Draft.build` fills in what was left open from
the place of the descriptor.
-/

namespace ClassAtlas

/-- The view of a module that resolution gives. -/
structure Module where
  descriptor : Path
  baseDirectory : Path
  projectRoot : Path
  group : String
  artifact : String
  version : String
  packaging : String
  localRepository : Option Path
  scope : Scope
  activeProfiles : List String
  modules : List String
  dependencies : List Dependency
  classpath : List Path
  classpathArchives : List Path
  sourceArchives : List Path
  outputDirectory : Path
  testOutputDirectory : Path
  deriving DecidableEq, Repr

namespace Module

/-- What is known about a module before it is complete. -/
structure Draft where
  descriptor : Path
  baseDirectory : Option Path := none
  projectRoot : Option Path := none
  group : String := ""
  artifact : String := ""
  version : Option String := none
  packaging : Option String := none
  localRepository : Option Path := none
  scope : Scope := .compile
  activeProfiles : List String := []
  modules : List String := []
  dependencies : List Dependency := []
  classpath : List Path := []
  classpathArchives : List Path := []
  sourceArchives : List Path := []
  outputDirectory : Option Path := none
  testOutputDirectory : Option Path := none
  deriving DecidableEq, Repr

/-- The directory below `base` that holds compiled classes. -/
def outputBelow (base : Path) : Path := (base.join "target").join "classes"

/-- The directory below `base` that holds compiled test classes. -/
def testOutputBelow (base : Path) : Path := (base.join "target").join "test-classes"

/-- Completes a draft.  The base directory is by default the one that holds the
descriptor, and the other directories lie below the base directory. -/
def Draft.build (draft : Draft) : Module :=
  let baseDirectory := (draft.baseDirectory.orElse fun _ => draft.descriptor.parent?).getD ⟨""⟩
  { descriptor := draft.descriptor
    baseDirectory
    projectRoot := draft.projectRoot.getD baseDirectory
    group := draft.group
    artifact := draft.artifact
    version := orWhenBlank unknownVersion (draft.version.getD "")
    packaging := orWhenBlank "jar" (draft.packaging.getD "")
    localRepository := draft.localRepository
    scope := draft.scope
    activeProfiles := draft.activeProfiles
    modules := draft.modules
    dependencies := draft.dependencies
    classpath := draft.classpath
    classpathArchives := draft.classpathArchives
    sourceArchives := draft.sourceArchives
    outputDirectory := draft.outputDirectory.getD (outputBelow baseDirectory)
    testOutputDirectory := draft.testOutputDirectory.getD (testOutputBelow baseDirectory) }

/-- A draft in which everything is already said. -/
def toDraft (module : Module) : Draft where
  descriptor := module.descriptor
  baseDirectory := some module.baseDirectory
  projectRoot := some module.projectRoot
  group := module.group
  artifact := module.artifact
  version := some module.version
  packaging := some module.packaging
  localRepository := module.localRepository
  scope := module.scope
  activeProfiles := module.activeProfiles
  modules := module.modules
  dependencies := module.dependencies
  classpath := module.classpath
  classpathArchives := module.classpathArchives
  sourceArchives := module.sourceArchives
  outputDirectory := some module.outputDirectory
  testOutputDirectory := some module.testOutputDirectory

/-- Two modules are the same when their descriptors are. -/
def same (left right : Module) : Bool :=
  left.descriptor.same right.descriptor

/-- `group:artifact:version`. -/
def coordinates (module : Module) : String :=
  ":".intercalate [module.group, module.artifact, module.version]

/-- The dependencies declared with exactly this scope. -/
def dependenciesOf (module : Module) (scope : Scope) : List Dependency :=
  module.dependencies.filter (·.scope == scope)

end Module
end ClassAtlas
