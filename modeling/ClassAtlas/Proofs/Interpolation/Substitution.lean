import ClassAtlas.Proofs.Interpolation.Evaluation
import Mathlib

/-!
# Substitution over acyclic tables

The values of a table refer to each other without a cycle when the keys can be ranked
so that every value refers to keys of smaller rank only.  Over such a table references
can be replaced by recursion on the rank, without a list of active properties and
without a memory: `substitute` does so.

The main statement: over an acyclic table expansion is this substitution, whatever was
expanded before with the same memory.
-/

namespace ClassAtlas.Interpolation

open Text (byteLength)

/-- Every reference in a value of the table to a key of the table is to a key of
smaller rank. -/
def Descends (table : PropertyTable) (rank : String → Nat) : Prop :=
  ∀ key value inside, table.get? key = some value →
    .reference inside ∈ segments value.toList →
    (table.get? (keyOf inside)).isSome → rank (keyOf inside) < rank key

/-- A segment that refers to no key of the table, or to one of smaller rank. -/
def Segment.refersBelow (table : PropertyTable) (rank : String → Nat) (bound : Nat) :
    Segment → Bool
  | .plain _ => true
  | .reference inside =>
      (table.get? (keyOf inside)).isNone || decide (rank (keyOf inside) < bound)

theorem descends_iff {table : PropertyTable} {rank : String → Nat} :
    Descends table rank ↔ ∀ entry ∈ table.entries, ∀ piece ∈ segments entry.2.toList,
      piece.refersBelow table rank (rank entry.1) = true := by
  constructor
  · intro descends entry member piece isPiece
    cases piece with
    | plain text => rfl
    | reference inside =>
        have below := descends entry.1 entry.2 inside (KeyedTable.get?_eq_some_iff.2 member)
          isPiece
        cases known : table.get? (keyOf inside) <;> simp_all [Segment.refersBelow]
  · intro below key value inside known isPiece
    have here := below (key, value) (KeyedTable.get?_eq_some_iff.1 known) _ isPiece
    cases target : table.get? (keyOf inside) <;> simp_all [Segment.refersBelow]

instance (table : PropertyTable) (rank : String → Nat) : Decidable (Descends table rank) :=
  decidable_of_iff _ descends_iff.symm

/-- A bound on the ranks of the keys of the table to which the segments refer. -/
def height (table : PropertyTable) (rank : String → Nat) : List Segment → Nat
  | [] => 0
  | .plain _ :: rest => height table rank rest
  | .reference inside :: rest =>
      match table.get? (keyOf inside) with
      | none => height table rank rest
      | some _ => max (rank (keyOf inside) + 1) (height table rank rest)

section Height

variable {table : PropertyTable} {rank : String → Nat}

theorem height_le {pieces : List Segment} {bound : Nat}
    (below : ∀ inside, .reference inside ∈ pieces →
      (table.get? (keyOf inside)).isSome → rank (keyOf inside) < bound) :
    height table rank pieces ≤ bound := by
  induction pieces with
  | nil => exact Nat.zero_le bound
  | cons piece rest ih =>
      have tail := ih fun inside member => below inside (List.mem_cons_of_mem piece member)
      cases piece with
      | plain text => exact tail
      | reference inside =>
          have head := below inside List.mem_cons_self
          cases known : table.get? (keyOf inside) with
          | none => simpa only [height, known] using tail
          | some value =>
              simp only [height, known]
              exact max_le (head (by simp [known])) tail

theorem height_rest_le (piece : Segment) (rest : List Segment) :
    height table rank rest ≤ height table rank (piece :: rest) := by
  cases piece with
  | plain text => exact le_rfl
  | reference inside =>
      simp only [height]
      split
      · exact le_rfl
      · exact le_max_right _ _

theorem height_value_lt (descends : Descends table rank) {inside : List Char}
    {value : String} (known : table.get? (keyOf inside) = some value)
    (rest : List Segment) :
    height table rank (segments value.toList) <
      height table rank (.reference inside :: rest) := by
  have inner : height table rank (segments value.toList) ≤ rank (keyOf inside) :=
    height_le fun other => descends _ value other known
  have outer : rank (keyOf inside) + 1 ≤ height table rank (.reference inside :: rest) := by
    simp only [height, known]
    exact le_max_left _ _
  exact Nat.lt_of_lt_of_le (Nat.lt_succ_of_le inner) outer

end Height

/-- The segments with each reference to a key of the table replaced by the full
expansion of its value, or by a bare reference to the key where that is too long. -/
def substitute {table : PropertyTable} {rank : String → Nat}
    (descends : Descends table rank) : List Segment → List Char
  | [] => []
  | .plain text :: rest => text ++ substitute descends rest
  | .reference inside :: rest =>
      let piece :=
        match _known : table.get? (keyOf inside) with
        | none => written inside
        | some value =>
            let full := substitute descends (segments value.toList)
            if byteLength full ≤ 65536 then full else written (Text.trim inside)
      piece ++ substitute descends rest
termination_by pieces => (height table rank pieces, pieces.length)
decreasing_by
  · exact Prod.Lex.right' _ le_rfl (by simp)
  · exact Prod.Lex.left _ _ (height_value_lt descends _known rest)
  · exact Prod.Lex.right' _ (height_rest_le _ rest) (by simp)

section Substitute

variable {table : PropertyTable} {rank : String → Nat} {descends : Descends table rank}

theorem substitute_plain (text : List Char) (rest : List Segment) :
    substitute descends (.plain text :: rest) = text ++ substitute descends rest := by
  rw [substitute]

theorem substitute_unknown {inside : List Char} (rest : List Segment)
    (unknown : table.get? (keyOf inside) = none) :
    substitute descends (.reference inside :: rest) =
      written inside ++ substitute descends rest := by
  rw [substitute]
  split
  · rfl
  · simp_all

theorem substitute_known {inside : List Char} {value : String} (rest : List Segment)
    (known : table.get? (keyOf inside) = some value) :
    substitute descends (.reference inside :: rest) =
      settle (keyOf inside) (substitute descends (segments value.toList)) ++
        substitute descends rest := by
  rw [substitute]
  split
  · simp_all
  · rename_i other found
    rw [known] at found
    cases found
    simp only [settle, longestExpansion, keyOf, String.toList_ofList]
    split <;> split <;> first | rfl | omega

end Substitute

/-- The text with its references replaced. -/
def substituteIn {table : PropertyTable} {rank : String → Nat}
    (descends : Descends table rank) (text : String) : String :=
  String.ofList (substitute descends (segments text.toList))

/-- A text that is just a reference becomes the expansion of the property. -/
theorem substituteIn_written {table : PropertyTable} {rank : String → Nat}
    {descends : Descends table rank} {text value : String} {inside : List Char}
    (shape : text.toList = written inside) (closed : '\x7d' ∉ inside)
    (known : table.get? (keyOf inside) = some value)
    (short : byteLength (substituteIn descends value).toList ≤ longestExpansion) :
    substituteIn descends text = substituteIn descends value := by
  rw [substituteIn, String.toList_ofList] at short
  rw [substituteIn, shape, segments_written closed, substitute_plain,
    substitute_known _ known, settle, if_neg (Nat.not_lt.2 short), substitute_plain,
    substitute, List.nil_append, List.nil_append, List.append_nil, substituteIn]

/-- Everything remembered is the settled full expansion of a property. -/
def Sound {table : PropertyTable} {rank : String → Nat} (descends : Descends table rank)
    (memory : Memory) : Prop :=
  ∀ key piece, memory.lookup key = some piece →
    ∃ value, table.get? key = some value ∧
      piece = settle key (substitute descends (segments value.toList))

/-- The references of the segments are to keys of smaller rank than the active ones. -/
def Below (table : PropertyTable) (rank : String → Nat) (active : List String)
    (pieces : List Segment) : Prop :=
  ∀ inside, .reference inside ∈ pieces → (table.get? (keyOf inside)).isSome →
    ∀ key ∈ active, rank (keyOf inside) < rank key

section Invariants

variable {table : PropertyTable} {rank : String → Nat} {descends : Descends table rank}

theorem sound_nil : Sound descends [] := by
  intro key piece found
  simp at found

theorem Sound.cons {memory : Memory} {key value : String}
    (sound : Sound descends memory) (known : table.get? key = some value) :
    Sound descends
      ((key, settle key (substitute descends (segments value.toList))) :: memory) :=
  forall_lookup_cons sound ⟨value, known, rfl⟩

theorem Below.tail {active : List String} {piece : Segment} {rest : List Segment}
    (below : Below table rank active (piece :: rest)) : Below table rank active rest :=
  fun inside member => below inside (List.mem_cons_of_mem piece member)

/-- The value of a property stays below the active ones and below the property. -/
theorem Below.value (descends : Descends table rank) {active : List String}
    {inside : List Char} {value : String} {rest : List Segment}
    (below : Below table rank active (.reference inside :: rest))
    (known : table.get? (keyOf inside) = some value) :
    Below table rank (keyOf inside :: active) (segments value.toList) := by
  intro other member present key active_mem
  have inner := descends _ value other known member present
  rcases List.mem_cons.1 active_mem with same | outer
  · exact same ▸ inner
  · exact inner.trans (below inside List.mem_cons_self (by simp [known]) key outer)

/-- A sound memory never changes a result, and no reference meets an active key. -/
theorem Expands.eq_substitute {active : List String} {memory memory' : Memory}
    {pieces : List Segment} {expanded : List Char}
    (expands : Expands table active memory pieces expanded memory')
    (sound : Sound descends memory) (below : Below table rank active pieces) :
    expanded = substitute descends pieces ∧ Sound descends memory' := by
  induction expands with
  | nil => exact ⟨by rw [substitute], sound⟩
  | plain _ ih =>
      obtain ⟨equal, after⟩ := ih sound below.tail
      exact ⟨by rw [substitute_plain, equal], after⟩
  | unknown unknown _ ih =>
      obtain ⟨equal, after⟩ := ih sound below.tail
      exact ⟨by rw [substitute_unknown _ unknown, equal], after⟩
  | active known busy _ _ =>
      have smaller := below _ List.mem_cons_self (by simp [known]) _ busy
      exact absurd smaller (lt_irrefl _)
  | remembered known _ remembered _ ih =>
      obtain ⟨equal, after⟩ := ih sound below.tail
      obtain ⟨value, known', piece⟩ := sound _ _ remembered
      exact ⟨by rw [substitute_known _ known', piece, equal], after⟩
  | fresh known _ _ _ _ innerIH restIH =>
      obtain ⟨inner, between⟩ := innerIH sound (below.value descends known)
      subst inner
      obtain ⟨equal, after⟩ := restIH (between.cons known) below.tail
      exact ⟨by rw [substitute_known _ known, equal], after⟩

/-- With a sound memory a text expands to its substitution, and the memory stays sound. -/
theorem Sound.expand {memory : Memory} (sound : Sound descends memory) (text : String) :
    (expand table memory text).1 = substituteIn descends text ∧
      Sound descends (expand table memory text).2 := by
  have expands := expands_expandSegments table [] memory (segments text.toList)
  obtain ⟨equal, after⟩ := expands.eq_substitute sound (by simp [Below])
  exact ⟨congrArg String.ofList equal, after⟩

theorem steady_sound (descends : Descends table rank) :
    Steady table (Sound descends) (fun _ => True) (substituteIn descends) where
  equal sound text _ := (sound.expand text).1
  kept sound text := (sound.expand text).2

theorem Sound.expandIfPresent {memory : Memory} (sound : Sound descends memory)
    (text : Option String) :
    (expandIfPresent table memory text).1 = text.map (substituteIn descends) ∧
      Sound descends (expandIfPresent table memory text).2 := by
  obtain ⟨equal, after⟩ := (steady_sound descends).expandIfPresent sound text
  exact ⟨equal fun _ _ => trivial, after⟩

/-- Whatever texts are expanded first, what is remembered then is sound. -/
theorem Sound.expandAll {memory : Memory} (sound : Sound descends memory)
    (texts : List String) : Sound descends (expandAll table memory texts).2 :=
  (steady_sound descends).expandAll sound texts

end Invariants

/-- A text is cut into its references from left to right, and over an acyclic table it
expands to the substitution of them: the same as with an empty memory, whatever was
expanded before. -/
theorem expand_eq_substitute {table : PropertyTable} {rank : String → Nat}
    (descends : Descends table rank) (earlier : List String) (text : String) :
    Scanned text.toList (segments text.toList) ∧
      (expand table (expandAll table [] earlier).2 text).1 =
        String.ofList (substitute descends (segments text.toList)) ∧
      (expand table (expandAll table [] earlier).2 text).1 = (expand table [] text).1 := by
  have sound : Sound descends [] := sound_nil
  have warm := ((sound.expandAll earlier).expand text).1
  have cold := (sound.expand text).1
  exact ⟨scanned_segments text.toList, warm, warm.trans cold.symm⟩

/-- Properties that refer to each other in a chain, one of them twice. -/
def chain : PropertyTable :=
  .ofList [("full", "$\x7bbase\x7d-$\x7b base \x7d"), ("base", "$\x7bv\x7d.0"), ("v", "1")]

/-- The place of a property in the chain. -/
def chainRank (key : String) : Nat :=
  if key = "full" then 2 else if key = "base" then 1 else 0

theorem chain_descends : Descends chain chainRank := by decide +kernel

theorem expand_chain :
    Descends chain chainRank ∧
      (expand chain (expandAll chain [] ["$\x7bv\x7d", "$\x7bfull\x7d"]).2
        "<$\x7b full \x7d|$\x7bw\x7d|$\x7bv").1 = "<1.0-1.0|$\x7bw\x7d|$\x7bv" := by
  refine ⟨chain_descends, ?_⟩
  rw [(expand_eq_substitute chain_descends ["$\x7bv\x7d", "$\x7bfull\x7d"] _).2.2]
  cbv

end ClassAtlas.Interpolation
