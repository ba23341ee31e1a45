import ClassAtlas.Descriptor.Scrape
import ClassAtlas.Interpolation
import ClassAtlas.Module
import ClassAtlas.ResolveError

/-!
# From descriptors to modules

The fields of a descriptor are expanded over its properties and over names for its
own identity.  The result is a module view, provided that group and artifact are
stated.
-/

namespace ClassAtlas.Descriptor

open Interpolation (Memory expand expandIfPresent)

/-- The names under which the descriptor's own identity and that of its parent can be
referred to, with what is written there. -/
def aliases (descriptor : Descriptor) : List (String × Option String) :=
  let own := fun lead : String =>
    [(lead ++ "groupId", descriptor.effectiveGroup),
      (lead ++ "artifactId", descriptor.artifact),
      (lead ++ "version", descriptor.effectiveVersion)]
  own "project." ++ own "pom." ++ own "" ++
    match descriptor.parent with
    | some parent =>
        [("project.parent.groupId", parent.group),
          ("project.parent.artifactId", parent.artifact),
          ("project.parent.version", parent.version)]
    | none => []

/-- The declared properties, overridden by the names for the identity. -/
def seededProperties (descriptor : Descriptor) : PropertyTable :=
  descriptor.aliases.foldl (fun table (key, value) => table.insertIfPresent key value)
    descriptor.properties

/-- What a descriptor says about the identity of its module. -/
structure Identity where
  group : Option String
  artifact : Option String
  version : Option String
  packaging : Option String
  deriving DecidableEq, Repr

/-- The identity with its references expanded. -/
def identity (descriptor : Descriptor) : Identity :=
  let table := descriptor.seededProperties
  let (group, memory) := expandIfPresent table [] descriptor.effectiveGroup
  let (artifact, memory) := expandIfPresent table memory descriptor.artifact
  let (version, memory) := expandIfPresent table memory descriptor.effectiveVersion
  let (packaging, _) := expandIfPresent table memory descriptor.packaging
  { group, artifact, version, packaging }

/-- The identity that a text states, read as a descriptor. -/
def identityOfText (text : String) : Identity :=
  (read text.toList).1.identity

/-- A dependency with its references expanded, unless it names no group or no
artifact. -/
def Declared.resolve (table : PropertyTable) (memory : Memory) (declared : Declared) :
    Option Dependency × Memory :=
  match declared.group with
  | none => (none, memory)
  | some group =>
      let (group, memory) := expand table memory group
      match declared.artifact with
      | none => (none, memory)
      | some artifact =>
          let (artifact, memory) := expand table memory artifact
          let (version, memory) := expandIfPresent table memory declared.version
          let (scope, memory) := expandIfPresent table memory declared.scope
          let (classifier, memory) := expandIfPresent table memory declared.classifier
          let (type, memory) := expandIfPresent table memory declared.type
          let (systemPath, memory) := expandIfPresent table memory declared.systemPath
          let plain := Dependency.of group artifact (version.getD unknownVersion)
          let classified := (classifier.map plain.withClassifier).getD plain
          let typed := (type.map classified.withType).getD classified
          (some { typed with
            scope := Scope.ofDeclared scope
            optional := declared.optional
            systemPath }, memory)

/-- The dependencies with their references expanded, in order. -/
def resolveDependencies (table : PropertyTable) (memory : Memory) :
    List Declared → List Dependency
  | [] => []
  | declared :: rest =>
      let (dependency, memory) := declared.resolve table memory
      dependency.toList ++ resolveDependencies table memory rest

/-- The directory of a descriptor, which is seen from the working directory when its
path names none. -/
def baseDirectoryOf (workingDirectory descriptor : Path) : Path :=
  match descriptor.parent? with
  | some parent =>
      if parent.text.isEmpty then fromWorkingDirectory else parent
  | none => fromWorkingDirectory
where
  fromWorkingDirectory :=
    ((workingDirectory.join descriptor.text).parent?).getD workingDirectory

/-- What a resolution is asked for. -/
structure Request where
  descriptor : Path
  scope : Scope
  profiles : List String
  localRepository : Option Path
  deriving DecidableEq, Repr

/-- The part of a module view that follows from the request alone. -/
def Request.draft (request : Request) (workingDirectory : Path) : Module.Draft :=
  let base := baseDirectoryOf workingDirectory request.descriptor
  { descriptor := request.descriptor
    baseDirectory := some base
    localRepository := request.localRepository
    scope := request.scope
    activeProfiles := request.profiles
    classpath := [Module.outputBelow base]
    outputDirectory := some (Module.outputBelow base)
    testOutputDirectory := some (Module.testOutputBelow base) }

/-- The module view of a descriptor's text. -/
def resolveText (workingDirectory : Path) (request : Request) (text : String) :
    Except ResolveError Module :=
  let descriptor := (read text.toList).1
  let identity := descriptor.identity
  match identity.group, identity.artifact with
  | some group, some artifact =>
      .ok { request.draft workingDirectory with
        group, artifact
        version := identity.version
        packaging := identity.packaging
        modules := descriptor.modules
        dependencies :=
          resolveDependencies descriptor.seededProperties [] descriptor.dependencies
        : Module.Draft }.build
  | group, artifact =>
      .error (.identityMissing request.descriptor
        ((if group.isNone then [.group] else []) ++
          (if artifact.isNone then [.artifact] else [])))

/-- The module view of the descriptor in a file. -/
def resolveFile (files : FileTree) (request : Request) : Except ResolveError Module :=
  if !files.isPresent request.descriptor then .error (.descriptorAbsent request.descriptor)
  else
    match files.readText request.descriptor with
    | .ok text => resolveText files.workingPath request text
    | .error cause => .error (.unreadable request.descriptor cause)

end ClassAtlas.Descriptor
