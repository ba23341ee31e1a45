import ClassAtlas.Text.Blank
import ClassAtlas.Text.Cut

/-!
# Headers of source files

The header of a source file is what stands before its first type declaration: the
package that the file belongs to and the names that it imports.  Headers are read
line by line, and comments are skipped.
-/

namespace ClassAtlas

/-- The package and the imports that a source file declares. -/
structure SourceHeader where
  package : Option String := none
  imports : List String := []
  deriving DecidableEq, Repr

namespace SourceHeader

open Text (cut trim)

/-- The text before the first occurrence of a mark. -/
def upTo (mark text : List Char) : List Char :=
  match cut mark text with
  | some (before, _) => trim before
  | none => text

/-- A line outside of comments that were opened on earlier lines, without the comment
that it may open, and whether it leaves one open.  A comment that ends on its line is
left in place. -/
def outsideComment (line : List Char) : List Char × Bool :=
  match cut ['/', '*'] line with
  | some (before, after) =>
      if Text.contains ['*', '/'] ('/' :: '*' :: after) then (upTo ['/', '/'] line, false)
      else (upTo ['/', '/'] (trim before), true)
  | none => (upTo ['/', '/'] line, false)

/-- What a line holds besides comments, and whether a comment is open after it. -/
def statementLine (isOpen : Bool) (line : List Char) : List Char × Bool :=
  if isOpen then
    match cut ['*', '/'] (trim line) with
    | some (_, after) => outsideComment (trim after)
    | none => ([], true)
  else outsideComment (trim line)

/-- What the lines hold besides comments. -/
def statementLines (isOpen : Bool) : List (List Char) → List (List Char)
  | [] => []
  | line :: rest =>
      let (statement, isOpen) := statementLine isOpen line
      statement :: statementLines isOpen rest

/-- Words that begin a type declaration. -/
def typeWords : List (List Char) :=
  ["class".toList, "interface".toList, "enum".toList, "record".toList, "@interface".toList]

/-- The line declares a type. -/
def declaresType (line : List Char) : Bool :=
  (Text.words Text.isBlank line).any typeWords.contains

/-- The lines of the header that are not empty. -/
def headerLines (source : List Char) : List (List Char) :=
  ((statementLines false (Text.lines source)).takeWhile (!declaresType ·)).filter (!·.isEmpty)

/-- The text after a word and at least one blank. -/
def afterWord? (word text : List Char) : Option (List Char) :=
  (word.isPrefixOf? text).filter fun rest => rest.head?.any Text.isBlank

/-- The package that a line declares. -/
def packageIn? (line : List Char) : Option (List Char) := do
  let rest ← afterWord? "package".toList line
  let name := trim (Text.dropEnd ';' (trim rest))
  if name.isEmpty then none else some name

/-- The name that a statement imports, blanks inside it left out.  A static import names
the member. -/
def importIn? (statement : List Char) : Option (List Char) := do
  let rest ← afterWord? "import".toList (trim statement)
  let rest := Text.trimStart rest
  let target := (trim ((afterWord? "static".toList rest).getD rest)).filter (!Text.isBlank ·)
  if target.isEmpty then none else some target

/-- The package of a source file. -/
def packageOf? (source : String) : Option String :=
  ((headerLines source.toList).findSome? packageIn?).map String.ofList

/-- The imports of a source file in order. -/
def importsOf (source : String) : List String :=
  (((headerLines source.toList).flatMap (·.splitOn ';')).filterMap importIn?).map String.ofList

/-- The header of a source file. -/
def ofSource (source : String) : SourceHeader where
  package := packageOf? source
  imports := importsOf source

end SourceHeader
end ClassAtlas
