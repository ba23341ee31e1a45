/-!
# Search patterns

A pattern is a sequence of pieces, each of which stands for certain texts; it
matches a text that is a text of each piece, one after another.  Only a literal
piece stands for a line feed.

Matching works from the end of the pattern: the row of a pattern says for each
suffix of the text whether the pattern matches it.
-/

namespace ClassAtlas.Pattern

/-- A part of a pattern. -/
inductive Piece where
  | literal (character : Char)
  | anyOne
  | anyRun
  deriving DecidableEq, Repr

/-- A character that the open pieces stand for. -/
def isOrdinary (character : Char) : Bool :=
  character != '\n'

/-- The row of the empty pattern: it matches the empty suffix alone. -/
def lastRow (text : List Char) : List Bool :=
  text.map (fun _ => false) ++ [true]

/-- The row of a pattern that begins with a piece for one character. -/
def stepRow (test : Char → Bool) (text : List Char) (row : List Bool) : List Bool :=
  List.zipWith (fun character next => test character && next) text (row.drop 1) ++ [false]

/-- The row of a pattern that begins with a piece for any run. -/
def runRow : List Char → List Bool → List Bool
  | character :: rest, here :: row =>
      let after := runRow rest row
      (here || (isOrdinary character && after.headD false)) :: after
  | _, row => row

/-- The row of a pattern with one more piece in front. -/
def Piece.row (text : List Char) (piece : Piece) (row : List Bool) : List Bool :=
  match piece with
  | .literal expected => stepRow (· == expected) text row
  | .anyOne => stepRow isOrdinary text row
  | .anyRun => runRow text row

/-- The pattern matches the text. -/
def isMatch (pattern : List Piece) (text : List Char) : Bool :=
  (pattern.foldr (Piece.row text) (lastRow text)).headD false

end ClassAtlas.Pattern
