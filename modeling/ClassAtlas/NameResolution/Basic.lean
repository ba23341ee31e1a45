import ClassAtlas.Data.Reading
import ClassAtlas.NameResolution.Candidate

/-!
# Resolution of class names

A source file may call a class by its simple name.  The rules that tell which class
is meant are tried in a fixed order: a name with a dot is qualified already, then come
the package of the file, imports of the class, imports of whole packages, and the
classes that are known without an import.  When none of them answers, all classes of
that name in the index are candidates, and the most likely one is the guess.
-/

namespace ClassAtlas

/-- The rule that gave the answer for a name, in the order of precedence. -/
inductive ResolutionRule where
  | qualified
  | samePackage
  | explicitImport
  | wildcardImport
  | implicitImport
  | ambiguous
  | notFound
  deriving DecidableEq, Repr

namespace ResolutionRule

/-- All rules in the order of precedence. -/
def all : List ResolutionRule :=
  [.qualified, .samePackage, .explicitImport, .wildcardImport, .implicitImport, .ambiguous,
    .notFound]

def name : ResolutionRule → String
  | .qualified => "FULLY_QUALIFIED"
  | .samePackage => "SAME_PACKAGE"
  | .explicitImport => "EXPLICIT_IMPORT"
  | .wildcardImport => "WILDCARD_IMPORT"
  | .implicitImport => "IMPLICIT_STANDARD_LIBRARY"
  | .ambiguous => "AMBIGUOUS"
  | .notFound => "NOT_FOUND"

def ofName? (text : String) : Option ResolutionRule :=
  all.find? (·.name == text)

/-- The rule names one class and no guess. -/
def isDecisive : ResolutionRule → Bool
  | .ambiguous | .notFound => false
  | _ => true

end ResolutionRule

/-- The answer for a name. -/
structure Resolution where
  name : String
  /-- The qualified name of the class, or of the best guess. -/
  resolved : Option String
  rule : ResolutionRule
  /-- All candidates for an ambiguous name. -/
  possible : List String := []
  /-- The package of the answer; for an ambiguous name the candidates that are equally
  likely. -/
  matching : List String := []
  confidence : Float := 0.0
  deriving Repr

namespace NameResolution

/-- The package of the classes that are known without an import. -/
def implicitPackage : String := "java.lang"

/-- The classes that are known without an import. -/
def implicitClasses : List String :=
  ["AutoCloseable", "Boolean", "Byte", "CharSequence", "Character", "Class", "Cloneable",
    "Comparable", "Deprecated", "Double", "Enum", "Error", "Exception", "Float",
    "FunctionalInterface", "IllegalArgumentException", "IllegalStateException", "Integer",
    "InterruptedException", "Iterable", "Long", "Math", "NullPointerException", "Number",
    "Object", "Override", "Record", "Runnable", "Runtime", "RuntimeException", "Short",
    "String", "StringBuilder", "SuppressWarnings", "System", "Thread", "Throwable", "Void"]

/-- The current package, when it has a class of this name. -/
def inCurrentPackage? (index : ClassIndex) (current : Option String) (simple : String) :
    Option String :=
  current.filter fun package => !package.isEmpty && index.contains ⟨package, simple⟩

/-- The package of the first import of exactly this class name. -/
def imported? (imports : List Import) (simple : String) : Option String :=
  imports.findSome? (Import.packageOf? simple)

/-- The first package imported as a whole that has a class of this name. -/
def opened? (index : ClassIndex) (imports : List Import) (simple : String) : Option String :=
  (imports.filterMap Import.opened?).find? fun package => index.contains ⟨package, simple⟩

/-- The package of the classes that are known without an import, if this is one. -/
def implicit? (simple : String) : Option String :=
  if implicitClasses.contains simple then some implicitPackage else none

/-- The first rule that finds a class for an unqualified name, and the package that it
gives. -/
def decide? (index : ClassIndex) (imports : List String) (current : Option String)
    (simple : String) : Option (ResolutionRule × String) :=
  let known := imports.filterMap Import.parse?
  match inCurrentPackage? index current simple with
  | some package => some (.samePackage, package)
  | none =>
  match imported? known simple with
  | some package => some (.explicitImport, package)
  | none =>
  match opened? index known simple with
  | some package => some (.wildcardImport, package)
  | none => (implicit? simple).map fun package => (.implicitImport, package)

/-- The answer from all candidates of the index. -/
def guess (index : ClassIndex) (imports : List String) (simple : String) : Resolution :=
  let candidates := index.packagesOf simple
  let winners := best imports simple candidates
  match winners with
  | [] => { name := simple, resolved := none, rule := .notFound }
  | winner :: _ =>
      { name := simple
        resolved := some (ClassName.qualified ⟨winner, simple⟩)
        rule := .ambiguous
        possible := candidates
        matching := winners
        confidence := confidence imports winner }

/-- Finds the class that a name means in a file with these imports and this package. -/
def resolve (index : ClassIndex) (imports : List String) (current : Option String)
    (name : String) : Resolution :=
  let name := Text.trimmed name
  match Text.cutLast '.' name.toList with
  | some (package, _) =>
      { name, resolved := some name, rule := .qualified
        matching := [String.ofList package] }
  | none =>
      match decide? index imports current name with
      | some (rule, package) =>
          { name, resolved := some (ClassName.qualified ⟨package, name⟩), rule
            matching := [package] }
      | none => guess index imports name

end NameResolution

namespace Resolution

def record (resolution : Resolution) : Data :=
  .table [("simple_name", .text resolution.name),
    ("resolved_name", .ofOption .text resolution.resolved),
    ("kind", .text resolution.rule.name),
    ("possible_packages", .texts resolution.possible),
    ("matched_packages", .texts resolution.matching),
    ("confidence", .decimal resolution.confidence)]

def ofData? (data : Data) : Option Resolution := do
  let fields ← data.fields? ["simple_name", "resolved_name", "kind", "possible_packages",
    "matched_packages", "confidence"] false
  return {
    name := ← fields.required "simple_name" Data.text?
    resolved := ← fields.ifPresent "resolved_name" Data.text?
    rule := ← fields.required "kind" (Data.choice? ResolutionRule.ofName?)
    possible := ← fields.required "possible_packages" (Data.list? Data.text?)
    matching := ← fields.required "matched_packages" (Data.list? Data.text?)
    confidence := ← fields.required "confidence" Data.decimal? }

end Resolution
end ClassAtlas
