import ClassAtlas.Decimal

/-!
# Data trees

The values that settings files hold and that machine-readable reports are made of:
scalars, lists and tables.  A table keeps the order of its entries.  `Data.pretty`
and `Data.compact` write a value as JSON.
-/

namespace ClassAtlas

/-- A tree of plain data. -/
inductive Data where
  | null
  | boolean (value : Bool)
  | integer (value : Int)
  | decimal (value : Float)
  | text (value : String)
  | list (values : List Data)
  | table (entries : List (String × Data))
  deriving Repr, Inhabited

namespace Data

/-- A value that may be absent, as `null` when it is. -/
def ofOption {α : Type} (encode : α → Data) : Option α → Data
  | none => .null
  | some value => encode value

def texts (values : List String) : Data :=
  .list (values.map .text)

def natural (value : Nat) : Data :=
  .integer (Int.ofNat value)

/-- A hexadecimal digit below sixteen. -/
def hexDigit (value : Nat) : Char :=
  (Nat.toDigits 16 value).headD '0'

/-- A character inside a JSON string.  Quotes, backslashes and control characters
are escaped, all others stand for themselves. -/
def escaped (character : Char) : List Char :=
  match character with
  | '"' => ['\\', '"']
  | '\\' => ['\\', '\\']
  | '\n' => ['\\', 'n']
  | '\r' => ['\\', 'r']
  | '\t' => ['\\', 't']
  | '\x08' => ['\\', 'b']
  | '\x0c' => ['\\', 'f']
  | _ =>
      let code := character.toNat
      if code < 0x20 then ['\\', 'u', '0', '0', hexDigit (code / 16), hexDigit (code % 16)]
      else [character]

def quoted (text : String) : String :=
  "\"" ++ String.ofList (text.toList.flatMap escaped) ++ "\""

/-- A value on one line. -/
def compact : Data → String
  | .null => "null"
  | .boolean value => if value then "true" else "false"
  | .integer value => toString value
  | .decimal value => Decimal.shortestText value
  | .text value => quoted value
  | .list values => "[" ++ ",".intercalate (items values) ++ "]"
  | .table entries => "\x7b" ++ ",".intercalate (members entries) ++ "\x7d"
where
  items : List Data → List String
    | [] => []
    | value :: rest => compact value :: items rest
  members : List (String × Data) → List String
    | [] => []
    | (key, value) :: rest => (quoted key ++ ":" ++ compact value) :: members rest

/-- A line break and the indentation of a level, two blanks for each. -/
def newLine (level : Nat) : String :=
  "\n" ++ String.ofList (List.replicate (2 * level) ' ')

/-- A bracketed list of pieces, one on each line; an empty list stays on its line. -/
def bracketed (opening closing : String) (level : Nat) : List String → String
  | [] => opening ++ closing
  | pieces =>
      opening ++ newLine (level + 1) ++ ("," ++ newLine (level + 1)).intercalate pieces ++
        newLine level ++ closing

/-- A value over several lines, with two blanks of indentation for each level. -/
def prettyAt (level : Nat) : Data → String
  | .list values => bracketed "[" "]" level (items (level + 1) values)
  | .table entries => bracketed "\x7b" "\x7d" level (members (level + 1) entries)
  | other => compact other
where
  items (level : Nat) : List Data → List String
    | [] => []
    | value :: rest => prettyAt level value :: items level rest
  members (level : Nat) : List (String × Data) → List String
    | [] => []
    | (key, value) :: rest =>
        (quoted key ++ ": " ++ prettyAt level value) :: members level rest

/-- A value over several lines. -/
def pretty (data : Data) : String :=
  prettyAt 0 data

end Data
end ClassAtlas
