import ClassAtlas.Text.Cut
import Mathlib.Data.List.Infix

/-!
# First occurrences

What `cut` says about occurrences of its mark: it finds the first one, and it finds
none only where there is none.  A stretch of text in which no occurrence begins can
be taken off the front of a text before it is cut.  `cutLast` finds the last occurrence
of a character.
-/

namespace ClassAtlas.Text

variable {mark text before after : List Char}

/-- A mark is taken off a text exactly when the text begins with it. -/
theorem isPrefixOf?_eq_some_iff : mark.isPrefixOf? text = some after ↔ text = mark ++ after := by
  constructor
  · exact isPrefixOf?_eq_some
  · intro shape
    subst shape
    induction mark with
    | nil => rfl
    | cons character mark ih => simp [List.isPrefixOf?, ih]

theorem isPrefixOf?_eq_none_iff : mark.isPrefixOf? text = none ↔ ¬mark <+: text := by
  rw [← Option.not_isSome_iff_eq_none, Option.isSome_iff_exists, not_iff_not]
  constructor
  · rintro ⟨rest, found⟩
    exact ⟨rest, (isPrefixOf?_eq_some found).symm⟩
  · rintro ⟨rest, rfl⟩
    exact ⟨rest, isPrefixOf?_eq_some_iff.2 rfl⟩

theorem withoutStart_of_not_prefix (other : ¬mark <+: text) : withoutStart mark text = text := by
  rw [withoutStart, isPrefixOf?_eq_none_iff.2 other, Option.getD_none]

/-- A text does not begin with the mark for what is written behind it, when the mark has none of
those characters. -/
theorem prefix_append_iff_of_apart (apart : ∀ character ∈ after, character ∉ mark) :
    mark <+: before ++ after ↔ mark <+: before := by
  constructor
  · intro start
    by_cases short : mark.length ≤ before.length
    · exact List.prefix_of_prefix_length_le start (List.prefix_append before after) short
    · have whole : before <+: mark :=
        List.prefix_of_prefix_length_le (List.prefix_append before after) start
          (Nat.le_of_not_le short)
      obtain ⟨rest, rfl⟩ := whole
      rw [List.prefix_append_right_inj] at start
      cases rest with
      | nil => rw [List.append_nil]
      | cons character rest =>
          exact absurd (by simp) (apart character (start.subset List.mem_cons_self))
  · intro start
    exact start.trans (List.prefix_append before after)

/-- A mark is taken off the end of a text exactly when the text ends with it. -/
theorem beforeEnd?_eq_some_iff : beforeEnd? mark text = some before ↔ text = before ++ mark := by
  rw [beforeEnd?, Option.map_eq_some_iff]
  constructor
  · rintro ⟨rest, found, rfl⟩
    rw [← List.reverse_inj, isPrefixOf?_eq_some found]
    simp
  · rintro rfl
    exact ⟨before.reverse, isPrefixOf?_eq_some_iff.2 (List.reverse_append), List.reverse_reverse _⟩

/-- A mark at the front is the first occurrence. -/
theorem cut_append (nonempty : mark ≠ []) (after : List Char) :
    cut mark (mark ++ after) = some ([], after) := by
  obtain ⟨first, rest, rfl⟩ := List.exists_cons_of_ne_nil nonempty
  have isMark := isPrefixOf?_eq_some_iff.2 (rfl : first :: rest ++ after = first :: rest ++ after)
  rw [List.cons_append] at isMark ⊢
  rw [cut, isMark]

/-- A character at which no occurrence begins is left before the mark. -/
theorem cut_cons_of_other {character : Char} (other : ¬mark <+: character :: text) :
    cut mark (character :: text) =
      (cut mark text).map fun (before, after) => (character :: before, after) := by
  rw [cut, isPrefixOf?_eq_none_iff.2 other]

/-- A stretch of text in which no occurrence begins is left before the mark. -/
theorem cut_append_of_other {front : List Char}
    (other : ∀ stretch, stretch <:+ front → stretch ≠ [] → ¬mark <+: stretch ++ text) :
    cut mark (front ++ text) =
      (cut mark text).map fun (before, after) => (front ++ before, after) := by
  induction front with
  | nil => cases found : cut mark text <;> simp [found]
  | cons character front ih =>
      have head := other (character :: front) List.suffix_rfl (List.cons_ne_nil _ _)
      have tail := ih fun stretch ending =>
        other stretch (ending.trans (List.suffix_cons character front))
      rw [List.cons_append] at head ⊢
      rw [cut_cons_of_other head, tail, Option.map_map]
      rfl

/-- A stretch of text that lacks the first character of the mark is left before it. -/
theorem cut_append_of_not_mem {first : Char} {part front : List Char} (absent : first ∉ front) :
    cut (first :: part) (front ++ text) =
      (cut (first :: part) text).map fun (before, after) => (front ++ before, after) := by
  apply cut_append_of_other
  intro stretch ending nonempty start
  cases stretch with
  | nil => exact nonempty rfl
  | cons character stretch =>
      rw [List.cons_append, List.cons_prefix_cons] at start
      exact absent (ending.mem (start.1 ▸ List.mem_cons_self))

/-- A stretch of text in which the mark does not occur is left before it, when no mark can begin
in the stretch and end after it. -/
theorem cut_append_of_apart {front : List Char} (absent : ¬mark <:+: front)
    (apart : ∀ character ∈ front.getLast?, character ∉ mark) (text : List Char) :
    cut mark (front ++ text) =
      (cut mark text).map fun (before, after) => (front ++ before, after) := by
  apply cut_append_of_other
  intro stretch ending nonempty start
  have whole : stretch <+: stretch ++ text := List.prefix_append stretch text
  by_cases short : mark.length ≤ stretch.length
  · have inside := List.prefix_of_prefix_length_le start whole short
    exact absent (inside.isInfix.trans ending.isInfix)
  · have inside := List.prefix_of_prefix_length_le whole start (Nat.le_of_not_le short)
    have last : front.getLast? = some (stretch.getLast nonempty) := by
      obtain ⟨outer, rfl⟩ := ending
      rw [List.getLast?_append, List.getLast?_eq_getLast_of_ne_nil nonempty]
      rfl
    exact apart _ last (inside.mem (List.getLast_mem nonempty))

/-- A mark is found after a text in which no other begins. -/
theorem cut_append_mark {front : List Char} (nonempty : mark ≠ [])
    (absent : ¬mark <:+: front ++ mark.dropLast) (after : List Char) :
    cut mark (front ++ (mark ++ after)) = some (front, after) := by
  have front : cut mark (front ++ (mark ++ after)) =
      (cut mark (mark ++ after)).map fun (before, after) => (front ++ before, after) := by
    apply cut_append_of_other
    intro stretch ending isStretch start
    have whole : stretch ++ mark.dropLast <+: stretch ++ (mark ++ after) := by
      rw [List.prefix_append_right_inj]
      exact (List.dropLast_prefix mark).trans (List.prefix_append mark after)
    have short : mark.length ≤ (stretch ++ mark.dropLast).length := by
      have positive := List.length_pos_iff.2 isStretch
      rw [List.length_append, List.length_dropLast]
      omega
    have inside := List.prefix_of_prefix_length_le start whole short
    obtain ⟨outer, rfl⟩ := ending
    apply absent
    rw [List.append_assoc]
    exact inside.isInfix.trans (List.suffix_append outer _).isInfix
  rw [front, cut_append nonempty]
  simp

/-- The first occurrence of a character is the one before which there is no other. -/
theorem cut_singleton_append {sign : Char} (absent : sign ∉ before) :
    cut [sign] (before ++ sign :: after) = some (before, after) := by
  rw [cut_append_of_not_mem absent]
  have atFront : cut [sign] (sign :: after) = some ([], after) :=
    cut_append (List.cons_ne_nil _ _) after
  simp [atFront]

/-- There is no occurrence where none is found. -/
theorem not_infix_of_cut (nonempty : mark ≠ []) (missing : cut mark text = none) :
    ¬mark <:+: text := by
  induction text with
  | nil => simpa using nonempty
  | cons character rest ih =>
      rw [cut] at missing
      split at missing
      · simp at missing
      · rename_i other
        rw [Option.map_eq_none_iff] at missing
        rw [List.infix_cons_iff]
        exact not_or_intro (isPrefixOf?_eq_none_iff.1 other) (ih missing)

/-- None is found where there is none. -/
theorem cut_eq_none (absent : ¬mark <:+: text) : cut mark text = none := by
  cases found : cut mark text with
  | none => rfl
  | some sides =>
      obtain ⟨before, after⟩ := sides
      refine absurd ?_ absent
      rw [cut_eq_some found]
      exact ⟨before, after, rfl⟩

/-- No occurrence begins before the one that is found. -/
theorem not_infix_before_of_cut (nonempty : mark ≠ [])
    (found : cut mark text = some (before, after)) :
    ¬mark <:+: before ++ mark.dropLast := by
  induction text generalizing before with
  | nil => simp [cut, nonempty] at found
  | cons character rest ih =>
      rw [cut] at found
      split at found
      · simp only [Option.some.injEq, Prod.mk.injEq] at found
        obtain ⟨rfl, rfl⟩ := found
        intro occurs
        have short := occurs.length_le
        have positive := List.length_pos_iff.2 nonempty
        rw [List.nil_append, List.length_dropLast] at short
        omega
      · rename_i other
        rw [isPrefixOf?_eq_none_iff] at other
        simp only [Option.map_eq_some_iff, Prod.mk.injEq] at found
        obtain ⟨⟨inner, outer⟩, found, rfl, rfl⟩ := found
        rw [List.cons_append, List.infix_cons_iff]
        refine not_or_intro ?_ (ih found)
        intro start
        have whole : character :: (inner ++ mark.dropLast) <+: character :: rest := by
          rw [cut_eq_some found, List.append_assoc, List.prefix_cons_inj,
            List.prefix_append_right_inj]
          exact (List.dropLast_prefix mark).trans (List.prefix_append mark outer)
        exact other (start.trans whole)

/-! ## Pieces -/

/-- No piece holds the character at which a text is split. -/
theorem not_mem_of_mem_splitOn {sign : Char} {piece : List Char}
    (member : piece ∈ text.splitOn sign) : sign ∉ piece := by
  induction text generalizing piece with
  | nil =>
      rw [List.splitOn_nil, List.mem_singleton] at member
      rw [member]
      exact List.not_mem_nil
  | cons character text ih =>
      obtain ⟨first, others, pieces⟩ := List.exists_cons_of_ne_nil (List.splitOn_ne_nil sign text)
      rw [List.splitOn_cons_eq_if_modifyHead, pieces] at member
      rw [pieces] at ih
      split at member
      · rcases List.mem_cons.1 member with rfl | later
        · exact List.not_mem_nil
        · exact ih later
      · rename_i other
        rcases List.mem_cons.1 member with rfl | later
        · rw [List.mem_cons, not_or]
          exact ⟨fun same => other (by rw [same, beq_self_eq_true]), ih List.mem_cons_self⟩
        · exact ih (List.mem_cons_of_mem first later)

/-! ## Last occurrences -/

variable {sign : Char}

/-- The last occurrence of a character is the one behind which there is no other. -/
theorem cutLast_append (absent : sign ∉ after) :
    cutLast sign (before ++ sign :: after) = some (before, after) := by
  have shape : (before ++ sign :: after).reverse = after.reverse ++ ([sign] ++ before.reverse) := by
    simp
  rw [cutLast, shape, cut_append_of_not_mem (by simpa using absent),
    cut_append (List.cons_ne_nil _ _)]
  simp

theorem cutLast_eq_some (found : cutLast sign text = some (before, after)) :
    text = before ++ sign :: after := by
  simp only [cutLast, Option.map_eq_some_iff, Prod.mk.injEq] at found
  obtain ⟨⟨back, front⟩, cutAt, rfl, rfl⟩ := found
  rw [← List.reverse_inj, cut_eq_some cutAt]
  simp

theorem cutLast_eq_none (absent : sign ∉ text) : cutLast sign text = none := by
  have missing : cut [sign] text.reverse = none := by
    apply cut_eq_none
    intro occurs
    exact absent (List.mem_reverse.1 (occurs.subset List.mem_cons_self))
  rw [cutLast, missing, Option.map_none]

end ClassAtlas.Text
