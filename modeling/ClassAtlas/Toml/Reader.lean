/-!
# Readers

A reader takes something from the start of a text and gives what is left.  What is left
is always shorter than the text, so reading again and again comes to an end.  The other
functions here pass over what separates the parts of a TOML document: blanks, comments
and line ends.
-/

namespace ClassAtlas.Toml

/-- What is left of a text after something was taken from its start. -/
abbrev Shorter (text : List Char) := { rest : List Char // rest.length < text.length }

/-- A way to take something from the start of a text. -/
abbrev Reader (β : Type) := (text : List Char) → Option (β × Shorter text)

/-- The reader that accepts what a function takes, unless that is nothing at all. -/
def Reader.of {β : Type} (take : List Char → Option (β × List Char)) : Reader β :=
  fun text =>
    match take text with
    | some (value, rest) =>
        if shorter : rest.length < text.length then some (value, ⟨rest, shorter⟩) else none
    | none => none

/-- What is left after a character at the start of a text. -/
def passing? (character : Char) : (text : List Char) → Option (Shorter text)
  | head :: rest => if head == character then some ⟨rest, Nat.lt_succ_self _⟩ else none
  | [] => none

/-- A blank that does not end a line. -/
def isBlank (character : Char) : Bool :=
  character == ' ' || character == '\t'

def isForeign (character : Char) : Bool :=
  character.toNat ≥ 0x80

/-- A character that may stand in a comment. -/
def isPlain (character : Char) : Bool :=
  character == '\t' || (' ' ≤ character && character ≤ '~') || isForeign character

/-- The text without the blanks at its start. -/
def skipBlanks (text : List Char) : List Char :=
  text.dropWhile isBlank

/-- The text after a line end at its start. -/
def afterLineEnd? : List Char → Option (List Char)
  | '\n' :: rest => some rest
  | '\r' :: '\n' :: rest => some rest
  | _ => none

/-- The text after a comment at its start; the line end is not part of the comment. -/
def skipComment : List Char → List Char
  | '#' :: rest => rest.dropWhile isPlain
  | text => text

/-- The text after the end of a line on which only blanks and a comment are left. -/
def afterLine? (text : List Char) : Option (List Char) :=
  match skipComment (skipBlanks text) with
  | [] => some []
  | rest => afterLineEnd? rest

/-- The text without the blanks, comments and line ends at its start. -/
def skipLines : List Char → List Char
  | [] => []
  | '#' :: rest => skipLines (rest.dropWhile isPlain)
  | '\n' :: rest => skipLines rest
  | '\r' :: '\n' :: rest => skipLines rest
  | character :: rest =>
      if isBlank character then skipLines rest else character :: rest
termination_by text => text.length
decreasing_by
  all_goals simp only [List.length_cons]
  all_goals first
    | omega
    | exact Nat.lt_succ_of_le (List.dropWhile_suffix _).length_le

theorem length_skipLines_le (text : List Char) : (skipLines text).length ≤ text.length := by
  fun_induction skipLines text with
  | case1 => simp
  | case2 rest ih =>
      have dropped := (List.dropWhile_suffix (l := rest) isPlain).length_le
      simp only [List.length_cons]
      omega
  | case3 rest ih => simp only [List.length_cons]; omega
  | case4 rest ih => simp only [List.length_cons]; omega
  | case5 character rest _ _ _ _ ih => simp only [List.length_cons]; omega
  | case6 => simp

/-- The text without the blanks, comments and line ends at its start, which is no longer. -/
def afterLines (text : List Char) : { rest : List Char // rest.length ≤ text.length } :=
  ⟨skipLines text, length_skipLines_le text⟩

end ClassAtlas.Toml
