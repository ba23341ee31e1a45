import ClassAtlas.Data

/-!
# Trees of tables

The tables of a TOML document as they are while it is read.  A table comes about by its
own header, by a longer header below it, or by a dotted key; what may still be added to
it depends on that.  A value that was given in one piece, such as an inline table, cannot
be added to.
-/

namespace ClassAtlas.Toml

/-- How a table came about. -/
inductive Origin where
  | header
  | longerHeader
  | dottedKey
  deriving DecidableEq, Repr

/-- What a key stands for. -/
inductive Node where
  | value (data : Data)
  | table (origin : Origin) (entries : List (String × Node))
  /-- Tables that were given one after another under the same header. -/
  | tables (all : List (List (String × Node)))

abbrev Entries := List (String × Node)

namespace Entries

/-- The entries with a new node for a key, in the place of the old one or at the end. -/
def put (key : String) (node : Node) : Entries → Entries
  | [] => [(key, node)]
  | (other, old) :: rest =>
      if other = key then (key, node) :: rest else (other, old) :: put key node rest

/-- Changes the last of several tables. -/
def changeLast (change : Entries → Option Entries) : List Entries → Option (List Entries)
  | [] => none
  | [last] => (change last).map ([·])
  | first :: rest => (changeLast change rest).map (first :: ·)

/-- Changes the table at a path of headers; tables on the way that are missing are
added. -/
def within (change : Entries → Option Entries) : List String → Entries → Option Entries
  | [], entries => change entries
  | key :: path, entries =>
      match entries.lookup key with
      | none =>
          (within change path []).map fun inner =>
            put key (.table .longerHeader inner) entries
      | some (.table origin inner) =>
          (within change path inner).map fun inner => put key (.table origin inner) entries
      | some (.tables all) =>
          (changeLast (within change path) all).map fun all => put key (.tables all) entries
      | some (.value _) => none

/-- Adds the table of a header.  Only a table that a longer header has brought about may
be there already. -/
def openTable (key : String) (entries : Entries) : Option Entries :=
  match entries.lookup key with
  | none => some (put key (.table .header []) entries)
  | some (.table .longerHeader inner) => some (put key (.table .header inner) entries)
  | some _ => none

/-- Adds one more table under a header for several. -/
def openNext (key : String) (entries : Entries) : Option Entries :=
  match entries.lookup key with
  | none => some (put key (.tables [[]]) entries)
  | some (.tables all) => some (put key (.tables (all ++ [[]])) entries)
  | some _ => none

/-- Adds a value under a dotted key.  The table that gets it must be the one that the key
starts from or have come about by dotted keys, and on the way no table may have a header
of its own. -/
def assign (isOpen : Bool) (key : String) (data : Data) :
    List String → Entries → Option Entries
  | [], entries =>
      if isOpen && (entries.lookup key).isNone then some (put key (.value data) entries)
      else none
  | first :: path, entries =>
      match entries.lookup first with
      | none =>
          (assign true key data path []).map fun inner =>
            put first (.table .dottedKey inner) entries
      | some (.table .dottedKey inner) =>
          (assign true key data path inner).map fun inner =>
            put first (.table .dottedKey inner) entries
      | some (.table .longerHeader inner) =>
          (assign false key data path inner).map fun inner =>
            put first (.table .longerHeader inner) entries
      | some (.tables all) =>
          (changeLast (assign false key data path) all).map fun all =>
            put first (.tables all) entries
      | some (.table .header _) | some (.value _) => none

end Entries

/-- Some of the entries of a list of tables, as data. -/
def Node.toData : Node → Data
  | .value data => data
  | .table _ entries => .table (members entries)
  | .tables all => .list (rows all)
where
  members : List (String × Node) → List (String × Data)
    | [] => []
    | (key, node) :: rest => (key, node.toData) :: members rest
  rows : List (List (String × Node)) → List Data
    | [] => []
    | entries :: rest => .table (members entries) :: rows rest

end ClassAtlas.Toml
