import ClassAtlas.Toml.Moment
import ClassAtlas.Toml.Tree

/-!
# Keys and values

Keys are names joined by dots.  Values are scalars, arrays, which may go over several
lines, and inline tables, which may not.  Values nest up to a limit, and keys have a
limited number of parts.
-/

namespace ClassAtlas.Toml

/-- One more than the parts that a key may have, and than the depth to which values may
nest. -/
def nestingLimit : Nat := 80

/-- A character of a key without quotes. -/
def isKeyCharacter (character : Char) : Bool :=
  Text.isAsciiLetter character || Text.isAsciiDigit character || character == '_' ||
    character == '-'

def simpleKey (text : List Char) : Option (String × List Char) :=
  match text.takeWhile isKeyCharacter with
  | [] => (shortText text).map fun (name, rest) => (String.ofList name, rest)
  | name => some (String.ofList name, text.dropWhile isKeyCharacter)

/-- A part of a key with the blanks around it. -/
def keyPart : Reader String :=
  Reader.of fun text =>
    (simpleKey (skipBlanks text)).map fun (name, rest) => (name, skipBlanks rest)

def keyParts (text : List Char) : Option (List String × List Char) :=
  match keyPart text with
  | none => none
  | some (name, ⟨rest, _⟩) =>
      match passing? '.' rest with
      | some ⟨next, _⟩ => (keyParts next).map fun (names, rest) => (name :: names, rest)
      | none => some ([name], rest)
termination_by text.length
decreasing_by omega

/-- A key: the names before the last one, and the last one. -/
structure Key where
  path : List String
  name : String
  deriving DecidableEq, Repr

def Key.ofParts? (names : List String) : Option Key :=
  if names.length < nestingLimit then
    names.getLast?.map fun name => ⟨names.dropLast, name⟩
  else none

def key (text : List Char) : Option (Key × List Char) := do
  let (names, rest) ← keyParts text
  return (← Key.ofParts? names, rest)

/-- A word that stands for a value. -/
def word? (word : String) (value : Data) (text : List Char) : Option (Data × List Char) :=
  (word.toList.isPrefixOf? text).map fun rest => (value, rest)

def scalar (text : List Char) : Option (Data × List Char) :=
  match text with
  | [] => none
  | first :: _ =>
      if first == '"' || first == '\'' then
        (quotedText text).map fun (characters, rest) =>
          (.text (String.ofList characters), rest)
      else if first == 't' then word? "true" (.boolean true) text
      else if first == 'f' then word? "false" (.boolean false) text
      else (moment text).orElse fun _ => number text

/-- The values of an array up to its closing bracket. -/
def arrayItems (value : Reader Data) (text : List Char) :
    Option (List Data × List Char) :=
  let ⟨start, _⟩ := afterLines text
  match passing? ']' start with
  | some ⟨rest, _⟩ => some ([], rest)
  | none =>
      match value start with
      | none => none
      | some (data, ⟨rest, _⟩) =>
          let ⟨afterItem, _⟩ := afterLines rest
          match passing? ',' afterItem with
          | some ⟨next, _⟩ =>
              (arrayItems value next).map fun (others, rest) => (data :: others, rest)
          | none => (passing? ']' afterItem).map fun ⟨rest, _⟩ => ([data], rest)
termination_by text.length
decreasing_by omega

def pair (value : Reader Data) : Reader (Key × Data) :=
  Reader.of fun text => do
    let (key, rest) ← key text
    let rest ← after? '=' rest
    let (data, ⟨rest, _⟩) ← value (skipBlanks rest)
    return ((key, data), skipBlanks rest)

/-- The pairs of an inline table after its first one, up to its closing brace. -/
def morePairs (value : Reader Data) (text : List Char) :
    Option (List (Key × Data) × List Char) :=
  match text with
  | '\x7d' :: rest => some ([], rest)
  | ',' :: next =>
      match pair value next with
      | none => none
      | some (first, ⟨rest, _⟩) =>
          (morePairs value rest).map fun (others, rest) => (first :: others, rest)
  | _ => none
termination_by text.length
decreasing_by
  rename_i shorter
  exact Nat.lt_succ_of_lt shorter

/-- The pairs of an inline table up to its closing brace. -/
def pairs (value : Reader Data) (text : List Char) :
    Option (List (Key × Data) × List Char) :=
  match skipBlanks text with
  | '\x7d' :: rest => some ([], rest)
  | start => do
      let (first, ⟨rest, _⟩) ← pair value start
      let (others, rest) ← morePairs value rest
      return (first :: others, rest)

/-- The entries of a table with a value under a key. -/
def Entries.assignPair (entries : Entries) (pair : Key × Data) : Option Entries :=
  assign true pair.1.name pair.2 pair.1.path entries

/-- The inline table of these pairs. -/
def inlineTable? (pairs : List (Key × Data)) : Option Data :=
  (pairs.foldlM Entries.assignPair []).map fun entries =>
    (Node.table .header entries).toData

/-- A value in which values nest up to a depth. -/
def value : Nat → Reader Data
  | 0 => Reader.of scalar
  | depth + 1 => Reader.of fun text =>
      match text with
      | '[' :: rest =>
          (arrayItems (value depth) rest).map fun (items, rest) => (.list items, rest)
      | '\x7b' :: rest => do
          let (pairs, rest) ← pairs (value depth) rest
          return (← inlineTable? pairs, rest)
      | text => scalar text

end ClassAtlas.Toml
