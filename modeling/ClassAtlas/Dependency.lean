import ClassAtlas.Path
import ClassAtlas.Scope

/-!
# Dependencies

A dependency names an archive by group, artifact, version, classifier and type.
Scope, optionality and resolved paths are notes on it and do not take part in its
identity.
-/

namespace ClassAtlas

/-- The version of whatever does not declare one. -/
def unknownVersion : String := "unknown"

/-- The text, or a default where it is blank. -/
def orWhenBlank (default text : String) : String :=
  if Text.isBlankString text then default else text

/-- A declared or resolved dependency. -/
structure Dependency where
  group : String
  artifact : String
  version : String
  classifier : Option String := none
  type : String := "jar"
  scope : Scope := .compile
  optional : Bool := false
  archive : Option Path := none
  systemPath : Option String := none
  deriving DecidableEq, Repr

namespace Dependency

/-- A plain compile dependency; a blank version is unknown. -/
def of (group artifact version : String) : Dependency :=
  { group, artifact, version := orWhenBlank unknownVersion version }

/-- The dependency with another classifier; a blank one means none. -/
def withClassifier (dependency : Dependency) (classifier : String) : Dependency :=
  { dependency with
    classifier := if Text.isBlankString classifier then none else some classifier }

/-- The dependency with another type; a blank one changes nothing. -/
def withType (dependency : Dependency) (type : String) : Dependency :=
  { dependency with type := orWhenBlank dependency.type type }

/-- What tells dependencies apart. -/
structure Identity where
  group : String
  artifact : String
  version : String
  classifier : Option String
  type : String
  deriving DecidableEq, Repr

/-- The part of a dependency that tells it from others. -/
def identity (dependency : Dependency) : Identity where
  group := dependency.group
  artifact := dependency.artifact
  version := dependency.version
  classifier := dependency.classifier
  type := dependency.type

/-- The two dependencies name the same archive. -/
def same (left right : Dependency) : Bool :=
  left.identity == right.identity

/-- How many different archives the dependencies name. -/
def countDistinct (dependencies : List Dependency) : Nat :=
  (dependencies.map identity).eraseDups.length

/-- `group:artifact[:classifier]:type:version`. -/
def coordinates (dependency : Dependency) : String :=
  ":".intercalate ([dependency.group, dependency.artifact] ++
    dependency.classifier.toList ++ [dependency.type, dependency.version])

/-- The coordinates followed by the scope in parentheses. -/
def display (dependency : Dependency) : String :=
  dependency.coordinates ++ " (" ++ dependency.scope.name ++ ")"

/-- The directories of a group in a repository, one for each of its segments. -/
def groupPath (dependency : Dependency) : Path :=
  (dependency.group.toList.splitOn '.').foldl
    (fun path segment => path.join (String.ofList segment)) ⟨""⟩

/-- The types whose archive is a `jar` whatever they are called. -/
def jarTypes : List String := ["", "bundle", "maven-plugin", "ejb", "test-jar"]

/-- The extension of the archive's file name. -/
def extension (dependency : Dependency) : String :=
  if jarTypes.contains dependency.type then "jar" else dependency.type

/-- `artifact-version[-classifier].extension`. -/
def archiveName (dependency : Dependency) : String :=
  "-".intercalate ([dependency.artifact, dependency.version] ++ dependency.classifier.toList)
    ++ "." ++ dependency.extension

/-- `artifact-version-sources.jar`. -/
def sourcesName (dependency : Dependency) : String :=
  "-".intercalate [dependency.artifact, dependency.version, "sources"] ++ ".jar"

end Dependency
end ClassAtlas
