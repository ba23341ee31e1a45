import ClassAtlas.KeyedTable
import ClassAtlas.Text.Blank
import ClassAtlas.Text.Cut

/-!
# Property references

A text may refer to properties as `${key}`.  Expanding it puts the expanded value of
each property in the place of its reference.  A reference stays as it is written
when its key is unknown or is being expanded already, and a property whose expansion
would be longer than `longestExpansion` bytes expands to a reference to itself.

Expansions are remembered: a property is expanded at most once for all the texts that
one memory serves.
-/

namespace ClassAtlas.Interpolation

open Text (cut)

/-- A piece of a text: plain, or what stands between the braces of a reference. -/
inductive Segment where
  | plain (text : List Char)
  | reference (inside : List Char)
  deriving DecidableEq, Repr

def opening : List Char := ['$', '\x7b']

def closing : List Char := ['\x7d']

/-- The segments of a text.  A reference begins at the first opening mark and ends at
the first closing mark after it; without one the rest of the text is plain. -/
def segments (text : List Char) : List Segment :=
  match _opened : cut opening text with
  | none => [.plain text]
  | some (before, rest) =>
      match _closed : cut closing rest with
      | none => [.plain text]
      | some (inside, after) => .plain before :: .reference inside :: segments after
termination_by text.length
decreasing_by
  have first := Text.length_of_cut _opened
  have second := Text.length_of_cut _closed
  have : 0 < opening.length := by decide
  omega

/-- A reference as it is written. -/
def written (inside : List Char) : List Char :=
  opening ++ inside ++ closing

/-- The key that a reference names: blanks around it do not count. -/
def keyOf (inside : List Char) : String :=
  String.ofList (Text.trim inside)

/-- The longest expansion of a property, in bytes. -/
def longestExpansion : Nat := 65536

/-- The expansions of properties that have been worked out. -/
abbrev Memory := List (String × List Char)

/-- What a property expands to, given its expanded value: an expansion that is too long
is replaced by a reference to the property. -/
def settle (key : String) (expanded : List Char) : List Char :=
  if Text.byteLength expanded > longestExpansion then written key.toList else expanded

/-- The keys of a table that are not among the active ones. -/
def inactive (table : PropertyTable) (active : List String) : List String :=
  table.keys.filter (!active.contains ·)

theorem length_inactive_lt {table : PropertyTable} {active : List String} {key value : String}
    (known : table.get? key = some value) (free : active.contains key = false) :
    (inactive table (key :: active)).length < (inactive table active).length := by
  have member : key ∈ table.keys := by
    simp only [KeyedTable.get?] at known
    simp only [KeyedTable.keys, List.mem_map]
    have := List.lookup_eq_some_iff.1 known
    obtain ⟨before, after, shape, _⟩ := this
    exact ⟨(key, value), by rw [shape]; simp, rfl⟩
  have shape : inactive table (key :: active) =
      (inactive table active).filter (· != key) := by
    simp only [inactive, List.filter_filter, List.contains_cons, bne]
    congr 1
    funext candidate
    simp [Bool.not_or]
  rw [shape]
  have inside : key ∈ inactive table active := by
    simp only [inactive, List.mem_filter]
    exact ⟨member, by rw [free]; rfl⟩
  have := List.length_filter_lt_length_iff_exists (p := (· != key)) (l := inactive table active)
  rw [this]
  exact ⟨key, inside, by simp⟩

/-- Expands segments while the properties in `active` are being expanded.  Gives the
expansion and what is remembered afterwards. -/
def expandSegments (table : PropertyTable) (active : List String) (memory : Memory) :
    List Segment → List Char × Memory
  | [] => ([], memory)
  | .plain text :: rest =>
      let (expanded, memory) := expandSegments table active memory rest
      (text ++ expanded, memory)
  | .reference inside :: rest =>
      let key := keyOf inside
      let (piece, memory) :=
        match _known : table.get? key with
        | none => (written inside, memory)
        | some value =>
            if _active : active.contains key then (written inside, memory)
            else
              match memory.lookup key with
              | some expanded => (expanded, memory)
              | none =>
                  let (expanded, memory) :=
                    expandSegments table (key :: active) memory (segments value.toList)
                  (settle key expanded, (key, settle key expanded) :: memory)
      let (expanded, memory) := expandSegments table active memory rest
      (piece ++ expanded, memory)
termination_by pieces => ((inactive table active).length, pieces.length)
decreasing_by
  · exact Prod.Lex.right _ (by simp)
  · exact Prod.Lex.left _ _ (length_inactive_lt _known (by simpa using _active))
  · exact Prod.Lex.right _ (by simp)

/-- Expands a text. -/
def expand (table : PropertyTable) (memory : Memory) (text : String) : String × Memory :=
  let (expanded, memory) := expandSegments table [] memory (segments text.toList)
  (String.ofList expanded, memory)

/-- Expands texts one after another with one memory. -/
def expandAll (table : PropertyTable) (memory : Memory) :
    List String → List String × Memory
  | [] => ([], memory)
  | text :: rest =>
      let (expanded, memory) := expand table memory text
      let (others, memory) := expandAll table memory rest
      (expanded :: others, memory)

/-- Expands a text that may be absent. -/
def expandIfPresent (table : PropertyTable) (memory : Memory) :
    Option String → Option String × Memory
  | none => (none, memory)
  | some text =>
      let (expanded, memory) := expand table memory text
      (some expanded, memory)

end ClassAtlas.Interpolation
