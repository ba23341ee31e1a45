import ClassAtlas.Text.Blank
import ClassAtlas.Text.Ascii

/-!
# Dependency scopes

A scope says in which situations a dependency is needed.  Resolving a module for one
scope makes the dependencies of certain other scopes visible.
-/

namespace ClassAtlas

/-- The scope of a dependency, or the scope for which a module is resolved. -/
inductive Scope where
  | compile
  | provided
  | runtime
  | test
  | system
  | imported
  deriving DecidableEq, Repr, Inhabited

namespace Scope

/-- All scopes, in the order in which they are listed to the user. -/
def all : List Scope := [.compile, .provided, .runtime, .test, .system, .imported]

def name : Scope → String
  | .compile => "compile"
  | .provided => "provided"
  | .runtime => "runtime"
  | .test => "test"
  | .system => "system"
  | .imported => "import"

/-- A name that no scope has, as it is left after trimming and lowering. -/
structure Unknown where
  invalid : String
  deriving DecidableEq, Repr

def Unknown.message (unknown : Unknown) : String :=
  "Unknown dependency scope '" ++ unknown.invalid ++ "'. Available: " ++
    ", ".intercalate (all.map name)

def ofName? (text : String) : Option Scope :=
  all.find? (·.name == text)

/-- Reads a scope; blanks around it and the case of its letters do not count. -/
def parse (text : String) : Except Unknown Scope :=
  let word := Text.lowered (Text.trimmed text)
  match ofName? word with
  | some scope => .ok scope
  | none => .error ⟨word⟩

/-- The scope that a descriptor or a tool names; whatever is not a scope counts as
`compile`. -/
def ofDeclared (text : Option String) : Scope :=
  match text.map parse with
  | some (.ok scope) => scope
  | _ => .compile

/-- Whether a dependency declared with `scope` is visible when a module is resolved
for `requested`. -/
def isVisibleIn (scope requested : Scope) : Bool :=
  match requested with
  | .compile => [.compile, .provided, .system].contains scope
  | .runtime => [.compile, .runtime].contains scope
  | .test => scope != .imported
  | .provided => [.compile, .provided].contains scope
  | .system => scope == .system
  | .imported => scope == .imported

end Scope
end ClassAtlas
