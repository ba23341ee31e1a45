import ClassAtlas.Proofs.Interpolation.Denotation

/-!
# Texts of which nothing is left

A text expands to blanks exactly when blanks are what it stands for, also over a table
with circles, since a reference that stays as it is written is not blank
(`Tells.expand`).  For a text that is not blank itself this takes a property
with a blank value (`Vanishes.exists_blank`).
-/

namespace ClassAtlas.Interpolation

open Text (isBlankText isBlankString)

/-- The text stands for nothing or for blanks. -/
def Vanishes (table : PropertyTable) (text : String) : Prop :=
  ∃ blank, isBlankText blank = true ∧ Denotes table none (segments text.toList) blank

/-- What is remembered as blank is what the value of the property stands for. -/
def Accounted (table : PropertyTable) (memory : Memory) : Prop :=
  ∀ key piece, memory.lookup key = some piece → ∀ value, table.get? key = some value →
    isBlankText piece = true →
    ∃ inner, Denotes table (some key) (segments value.toList) inner ∧ piece = settle key inner

section Blank

variable {table : PropertyTable}

theorem isBlankText_append {front text : List Char} :
    isBlankText (front ++ text) = true ↔ isBlankText front = true ∧ isBlankText text = true := by
  simp only [isBlankText, List.all_append, Bool.and_eq_true]

theorem not_isBlankText_written (inside : List Char) : ¬isBlankText (written inside) := by
  intro blank
  have dollar := List.all_eq_true.1 blank '$' List.mem_cons_self
  exact absurd dollar (by decide)

/-- Only blanks settle to blanks. -/
theorem isBlankText_of_settle {key : String} {expanded : List Char}
    (blank : isBlankText (settle key expanded) = true) : isBlankText expanded = true := by
  rw [settle] at blank
  split at blank
  · exact absurd blank (not_isBlankText_written _)
  · exact blank

theorem accounted_nil : Accounted table [] := by
  intro key piece found
  cases found

theorem Accounted.cons {memory : Memory} {key value : String} {inner : List Char}
    (accounted : Accounted table memory) (known : table.get? key = some value)
    (denotes : isBlankText inner = true → Denotes table (some key) (segments value.toList) inner) :
    Accounted table ((key, settle key inner) :: memory) := by
  apply forall_lookup_cons accounted
  intro other isOther blank
  rw [known] at isOther
  cases isOther
  exact ⟨inner, denotes (isBlankText_of_settle blank), rfl⟩

/-- Segments that expand to blanks stand for them. -/
theorem Expands.denotes_blank {active : List String} {memory memory' : Memory}
    {pieces : List Segment} {expanded : List Char}
    (expands : Expands table active memory pieces expanded memory')
    (accounted : Accounted table memory) :
    (isBlankText expanded = true → Denotes table active.head? pieces expanded) ∧
      Accounted table memory' := by
  induction expands with
  | nil => exact ⟨fun _ => .nil, accounted⟩
  | plain _ ih =>
      obtain ⟨denotes, after⟩ := ih accounted
      refine ⟨fun blank => ?_, after⟩
      exact .plain (denotes (isBlankText_append.1 blank).2)
  | unknown _ _ ih =>
      refine ⟨fun blank => ?_, (ih accounted).2⟩
      exact absurd (isBlankText_append.1 blank).1 (not_isBlankText_written _)
  | active _ _ _ ih =>
      refine ⟨fun blank => ?_, (ih accounted).2⟩
      exact absurd (isBlankText_append.1 blank).1 (not_isBlankText_written _)
  | remembered known free remembered _ ih =>
      obtain ⟨denotes, after⟩ := ih accounted
      refine ⟨fun blank => ?_, after⟩
      obtain ⟨blankPiece, blankRest⟩ := isBlankText_append.1 blank
      obtain ⟨inner, value, rfl⟩ := accounted _ _ remembered _ known blankPiece
      exact .other known (head?_ne free) value (denotes blankRest)
  | fresh known free _ _ _ innerIH restIH =>
      obtain ⟨value, between⟩ := innerIH accounted
      obtain ⟨denotes, after⟩ := restIH (between.cons known value)
      refine ⟨fun blank => ?_, after⟩
      obtain ⟨blankPiece, blankRest⟩ := isBlankText_append.1 blank
      exact .other known (head?_ne free) (value (isBlankText_of_settle blankPiece))
        (denotes blankRest)

/-- Segments that stand for blanks are blank, or some value of the table is. -/
theorem Denotes.exists_blank {owner : Option String} {pieces : List Segment}
    {expanded : List Char} (denotes : Denotes table owner pieces expanded)
    (blank : isBlankText expanded = true) :
    isBlankText (pieces.flatMap Segment.text) = true ∨
      ∃ key value, table.get? key = some value ∧ isBlankString value = true := by
  induction denotes with
  | nil => exact .inl rfl
  | plain _ ih =>
      obtain ⟨front, rest⟩ := isBlankText_append.1 blank
      rcases ih rest with blankRest | inTable
      · exact .inl (isBlankText_append.2 ⟨front, blankRest⟩)
      · exact .inr inTable
  | unknown _ _ _ => exact absurd (isBlankText_append.1 blank).1 (not_isBlankText_written _)
  | own _ _ _ _ => exact absurd (isBlankText_append.1 blank).1 (not_isBlankText_written _)
  | @other _ _ inside _ _ value known _ _ _ innerIH _ =>
      have inner := isBlankText_of_settle (isBlankText_append.1 blank).1
      rcases innerIH inner with blankValue | inTable
      · rw [flatMap_segments] at blankValue
        exact .inr ⟨keyOf inside, value, known, blankValue⟩
      · exact .inr inTable

/-- A text of which nothing is left is blank, or some value of the table is. -/
theorem Vanishes.exists_blank {text : String} (vanishes : Vanishes table text) :
    isBlankString text = true ∨
      ∃ key value, table.get? key = some value ∧ isBlankString value = true := by
  obtain ⟨expanded, blank, denotes⟩ := vanishes
  have found := denotes.exists_blank blank
  rwa [flatMap_segments] at found

/-- What texts leave behind them tells blanks from other expansions. -/
structure Tells (table : PropertyTable) (memory : Memory) : Prop where
  faithful : Faithful table memory
  accounted : Accounted table memory

theorem tells_nil : Tells table [] := ⟨faithful_nil, accounted_nil⟩

theorem Tells.expand {memory : Memory} (tells : Tells table memory) (text : String) :
    (isBlankString (expand table memory text).1 = true ↔ Vanishes table text) ∧
      Tells table (expand table memory text).2 := by
  have expands := expands_expandSegments table [] memory (segments text.toList)
  obtain ⟨denoted, faithful⟩ := expands.denotes tells.faithful (trail_nil _)
  obtain ⟨denotes, accounted⟩ := expands.denotes_blank tells.accounted
  have isBlank : isBlankString (Interpolation.expand table memory text).1 =
      isBlankText (expandSegments table [] memory (segments text.toList)).1 := by
    simp only [isBlankString, Interpolation.expand, String.toList_ofList]
  refine ⟨?_, faithful, accounted⟩
  rw [isBlank]
  constructor
  · intro blank
    exact ⟨_, blank, denotes blank⟩
  · rintro ⟨blank, isBlank, stands⟩
    rw [denoted blank stands]
    exact isBlank

/-- Nothing is said of what single texts expand to. -/
theorem steady_tells : Steady table (Tells table) (fun _ => False) id where
  equal _ _ never := never.elim
  kept tells text := (tells.expand text).2

end Blank

end ClassAtlas.Interpolation
