import ClassAtlas.Toml.Value

/-!
# Documents

A TOML document is a sequence of lines: headers, which say into which table the following
lines go, and pairs of a key and a value.  `Data.ofToml?` reads a document into a table.
-/

namespace ClassAtlas.Toml

/-- What a line of a document says. -/
inductive Statement where
  | nothing
  | header (key : Key)
  | nextHeader (key : Key)
  | pair (key : Key) (data : Data)

/-- A key between brackets, up to the end of its line. -/
def headerLine (closing : List Char) (make : Key → Statement) (text : List Char) :
    Option (Statement × List Char) := do
  let (key, rest) ← key text
  let rest ← closing.isPrefixOf? rest
  return (make key, ← afterLine? rest)

/-- A key with its value, up to the end of the line. -/
def pairLine (text : List Char) : Option (Statement × List Char) := do
  let ((key, data), ⟨rest, _⟩) ← pair (value (nestingLimit - 1)) text
  return (.pair key data, ← afterLine? rest)

def statement : Reader Statement :=
  Reader.of fun text =>
    match text with
    | '#' :: _ => (afterLine? text).map fun rest => (.nothing, rest)
    | '[' :: '[' :: rest => headerLine [']', ']'] .nextHeader rest
    | '[' :: rest => headerLine [']'] .header rest
    | text =>
        match afterLineEnd? text with
        | some rest => some (.nothing, rest)
        | none => pairLine text

def statements (text : List Char) : Option (List Statement) :=
  match _start : skipBlanks text with
  | [] => some []
  | start =>
      match statement start with
      | none => none
      | some (first, ⟨rest, _⟩) => (statements rest).map (first :: ·)
termination_by text.length
decreasing_by
  have before := (List.dropWhile_suffix (l := text) isBlank).length_le
  rw [skipBlanks] at _start
  rw [_start] at before
  omega

/-- A document as far as it has been read: its tables, and the path of the table that the
next pairs belong to. -/
structure Draft where
  entries : Entries := []
  current : List String := []

/-- The draft after one more line. -/
def Draft.add (draft : Draft) : Statement → Option Draft
  | .nothing => some draft
  | .header key =>
      (Entries.within (Entries.openTable key.name) key.path draft.entries).map fun entries =>
        ⟨entries, key.path ++ [key.name]⟩
  | .nextHeader key =>
      (Entries.within (Entries.openNext key.name) key.path draft.entries).map fun entries =>
        ⟨entries, key.path ++ [key.name]⟩
  | .pair key data =>
      (Entries.within (·.assignPair (key, data)) draft.current draft.entries).map
        fun entries => ⟨entries, draft.current⟩

/-- The text without the mark of its encoding. -/
def withoutMark : List Char → List Char
  | '\ufeff' :: rest => rest
  | text => text

end Toml

/-- The table that a TOML document describes. -/
def Data.ofToml? (text : String) : Option Data := do
  let statements ← Toml.statements (Toml.withoutMark text.toList)
  let draft ← statements.foldlM Toml.Draft.add {}
  return (Toml.Node.table .header draft.entries).toData

end ClassAtlas
