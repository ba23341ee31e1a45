import ClassAtlas.ClassName

/-!
# Imports

An import statement names one class, or all classes of a package when it ends in a
star.  The keywords and the final semicolon may be left out.
-/

namespace ClassAtlas

/-- What an import makes known. -/
inductive Import where
  | single (name : ClassName)
  | wildcard (package : String)
  deriving DecidableEq, Repr

namespace Import

open Text (trimStart trimEnd withoutStart)

/-- The text of a statement after its keywords. -/
def target (statement : String) : List Char :=
  trimStart (withoutStart "static ".toList
    (trimStart (withoutStart "import ".toList (Text.trim statement.toList))))

/-- Reads an import statement.  A name without a dot and a star without a package make
nothing known. -/
def parse? (statement : String) : Option Import :=
  let name := trimEnd (Text.dropEnd ';' (target statement))
  match Text.beforeEnd? ['.', '*'] name with
  | some package =>
      if package.isEmpty then none else some (.wildcard (String.ofList package))
  | none =>
      (Text.cutLast '.' name).map fun (package, simple) =>
        .single ⟨String.ofList package, String.ofList simple⟩

/-- The package of an import of exactly this class name. -/
def packageOf? (simple : String) : Import → Option String
  | .single name => if name.simple == simple then some name.package else none
  | .wildcard _ => none

/-- The package of a wildcard import. -/
def opened? : Import → Option String
  | .single _ => none
  | .wildcard package => some package

end Import
end ClassAtlas
