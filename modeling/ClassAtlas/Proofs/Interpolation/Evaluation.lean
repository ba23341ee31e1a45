import ClassAtlas.Interpolation
import ClassAtlas.Proofs.Text.Cut

/-!
# Evaluation of references

`Expands` says in one rule for each case what can become of the first segment of a
text: it is plain, it refers to a property that is unknown, active or remembered, or
it refers to a property whose value is taken apart now.  `expandSegments` follows
these rules, so that a property of expansion needs one induction over them.

The segments of a text make up the text, and `Scanned` says where they are cut.
-/

namespace ClassAtlas.Interpolation

open Text (cut byteLength)

/-! ## The segments of a text -/

/-- A segment as it is written. -/
def Segment.text : Segment → List Char
  | .plain text => text
  | .reference inside => written inside

section Segments

variable {text before rest inside after : List Char}

theorem segments_of_unopened (unopened : cut opening text = none) :
    segments text = [.plain text] := by
  rw [segments]
  split
  · rfl
  · simp_all

theorem segments_of_unclosed (opened : cut opening text = some (before, rest))
    (unclosed : cut closing rest = none) : segments text = [.plain text] := by
  rw [segments]
  split
  · rfl
  · split <;> simp_all

theorem segments_of_closed (opened : cut opening text = some (before, rest))
    (closed : cut closing rest = some (inside, after)) :
    segments text = .plain before :: .reference inside :: segments after := by
  rw [segments]
  split
  · simp_all
  · split <;> simp_all

/-- The segments of a text, written one after another, are the text. -/
theorem flatMap_segments (text : List Char) :
    (segments text).flatMap Segment.text = text := by
  induction text using segments.induct with
  | case1 text unopened =>
      rw [segments_of_unopened unopened]
      exact List.append_nil text
  | case2 text before rest opened unclosed =>
      rw [segments_of_unclosed opened unclosed]
      exact List.append_nil text
  | case3 text before rest opened inside after closed ih =>
      rw [segments_of_closed opened closed, Text.cut_eq_some opened, Text.cut_eq_some closed]
      simp only [List.flatMap_cons, Segment.text, written, ih, List.append_assoc]

/-- What stands between the braces of a reference holds no closing one. -/
theorem segments_written (closed : '\x7d' ∉ inside) :
    segments (written inside) = [.plain [], .reference inside, .plain []] := by
  have opened : cut opening (written inside) = some ([], inside ++ closing) := by
    rw [written, List.append_assoc]
    exact Text.cut_append (List.cons_ne_nil _ _) _
  have first : cut closing (inside ++ closing) = some (inside, []) := by
    rw [Text.cut_append_of_other]
    · have atEnd : cut closing closing = some ([], []) :=
        Text.cut_append (List.cons_ne_nil _ _) []
      simp [atEnd]
    · intro stretch ending nonempty isMark
      obtain ⟨character, rest, rfl⟩ := List.exists_cons_of_ne_nil nonempty
      rw [closing, List.cons_append, List.cons_prefix_cons] at isMark
      exact closed (isMark.1 ▸ ending.subset List.mem_cons_self)
  rw [segments_of_closed opened first, segments_of_unopened rfl]

/-- `Scanned text pieces`: the pieces are what the text is cut into, from left to right.
A reference is what stands between the first opening mark and the first closing mark
after it, and a tail without the one or the other is plain. -/
inductive Scanned : List Char → List Segment → Prop where
  | unopened {text : List Char} : ¬opening <:+: text → Scanned text [.plain text]
  | unclosed {before rest : List Char} :
      ¬opening <:+: before ++ ['$'] → '\x7d' ∉ rest →
      Scanned (before ++ opening ++ rest) [.plain (before ++ opening ++ rest)]
  | reference {before inside after : List Char} {pieces : List Segment} :
      ¬opening <:+: before ++ ['$'] → '\x7d' ∉ inside → Scanned after pieces →
      Scanned (before ++ written inside ++ after)
        (.plain before :: .reference inside :: pieces)

theorem scanned_segments (text : List Char) : Scanned text (segments text) := by
  have openingNonempty : opening ≠ [] := List.cons_ne_nil _ _
  have closingNonempty : closing ≠ [] := List.cons_ne_nil _ _
  induction text using segments.induct with
  | case1 text unopened =>
      rw [segments_of_unopened unopened]
      exact .unopened (Text.not_infix_of_cut openingNonempty unopened)
  | case2 text before rest opened unclosed =>
      rw [segments_of_unclosed opened unclosed, Text.cut_eq_some opened]
      have first := Text.not_infix_before_of_cut openingNonempty opened
      have missing := Text.not_infix_of_cut closingNonempty unclosed
      exact .unclosed first (by simpa [closing, List.singleton_infix_iff] using missing)
  | case3 text before rest opened inside after closed ih =>
      rw [segments_of_closed opened closed, Text.cut_eq_some opened, Text.cut_eq_some closed]
      have first := Text.not_infix_before_of_cut openingNonempty opened
      have end' := Text.not_infix_before_of_cut closingNonempty closed
      have shape : before ++ opening ++ (inside ++ closing ++ after) =
          before ++ written inside ++ after := by
        simp only [written, List.append_assoc]
      rw [shape]
      exact .reference first (by simpa [closing, List.singleton_infix_iff] using end') ih

end Segments

/-! ## The rules of expansion -/

/-- `Expands table active memory pieces expanded memory'`: while the properties in
`active` are being expanded and `memory` is remembered, the segments expand to
`expanded`, and `memory'` is remembered afterwards. -/
inductive Expands (table : PropertyTable) :
    List String → Memory → List Segment → List Char → Memory → Prop where
  | nil {active : List String} {memory : Memory} :
      Expands table active memory [] [] memory
  | plain {active : List String} {memory memory' : Memory} {rest : List Segment}
      {text expanded : List Char} :
      Expands table active memory rest expanded memory' →
      Expands table active memory (.plain text :: rest) (text ++ expanded) memory'
  | unknown {active : List String} {memory memory' : Memory} {rest : List Segment}
      {inside expanded : List Char} :
      table.get? (keyOf inside) = none →
      Expands table active memory rest expanded memory' →
      Expands table active memory (.reference inside :: rest)
        (written inside ++ expanded) memory'
  | active {active : List String} {memory memory' : Memory} {rest : List Segment}
      {inside expanded : List Char} {value : String} :
      table.get? (keyOf inside) = some value → keyOf inside ∈ active →
      Expands table active memory rest expanded memory' →
      Expands table active memory (.reference inside :: rest)
        (written inside ++ expanded) memory'
  | remembered {active : List String} {memory memory' : Memory} {rest : List Segment}
      {inside piece expanded : List Char} {value : String} :
      table.get? (keyOf inside) = some value → keyOf inside ∉ active →
      memory.lookup (keyOf inside) = some piece →
      Expands table active memory rest expanded memory' →
      Expands table active memory (.reference inside :: rest) (piece ++ expanded) memory'
  | fresh {active : List String} {memory between memory' : Memory} {rest : List Segment}
      {inside inner expanded : List Char} {value : String} :
      table.get? (keyOf inside) = some value → keyOf inside ∉ active →
      memory.lookup (keyOf inside) = none →
      Expands table (keyOf inside :: active) memory (segments value.toList) inner between →
      Expands table active ((keyOf inside, settle (keyOf inside) inner) :: between) rest
        expanded memory' →
      Expands table active memory (.reference inside :: rest)
        (settle (keyOf inside) inner ++ expanded) memory'

/-- Expansion follows the rules. -/
theorem expands_expandSegments (table : PropertyTable) (active : List String)
    (memory : Memory) (pieces : List Segment) :
    Expands table active memory pieces (expandSegments table active memory pieces).1
      (expandSegments table active memory pieces).2 := by
  induction active, memory, pieces using expandSegments.induct table with
  | case1 active memory =>
      rw [expandSegments]
      exact .nil
  | case2 active memory text rest expanded memory' evaluated ih =>
      rw [expandSegments]
      exact .plain ih
  | case3 active memory inside rest key piece between first expanded memory' evaluated
      inner ih =>
      simp only [key] at first inner
      rw [expandSegments, first]
      split at first
      · rename_i unknown
        cases first
        exact .unknown unknown ih
      · rename_i value known
        split at first
        · rename_i busy
          cases first
          exact .active known (by simpa using busy) ih
        · rename_i idle
          have free : keyOf inside ∉ active := by simpa using idle
          split at first
          · rename_i remembered
            cases first
            exact .remembered known free remembered ih
          · rename_i forgotten
            cases first
            exact .fresh known free forgotten (inner value known idle) ih

/-! ## What is remembered -/

/-- What holds of everything that is remembered and of one more expansion holds of
everything that is remembered with it. -/
theorem forall_lookup_cons {memory : Memory} {holds : String → List Char → Prop}
    {key : String} {piece : List Char}
    (others : ∀ key piece, memory.lookup key = some piece → holds key piece)
    (own : holds key piece) (other : String) (found : List Char)
    (remembered : ((key, piece) :: memory).lookup other = some found) : holds other found := by
  by_cases same : other = key
  · subst same
    rw [List.lookup_cons_self, Option.some.injEq] at remembered
    exact remembered ▸ own
  · have apart : (other == key) = false := by simpa using same
    rw [List.lookup_cons, apart] at remembered
    exact others other found remembered

/-! ## Texts one after another -/

/-- `Steady table keeps stands expansion`: what `keeps` says of a memory still holds after
a text, and with such a memory each text of which `stands` holds expands to what
`expansion` gives. -/
structure Steady (table : PropertyTable) (keeps : Memory → Prop) (stands : String → Prop)
    (expansion : String → String) : Prop where
  equal : ∀ {memory}, keeps memory → ∀ text, stands text →
    (expand table memory text).1 = expansion text
  kept : ∀ {memory}, keeps memory → ∀ text, keeps (expand table memory text).2

section Steady

variable {table : PropertyTable} {keeps : Memory → Prop} {stands : String → Prop}
variable {expansion : String → String} {memory : Memory}

theorem Steady.expandIfPresent (steady : Steady table keeps stands expansion)
    (start : keeps memory) (text : Option String) :
    ((∀ present ∈ text, stands present) →
      (expandIfPresent table memory text).1 = text.map expansion) ∧
      keeps (expandIfPresent table memory text).2 := by
  cases text with
  | none => exact ⟨fun _ => rfl, start⟩
  | some text =>
      refine ⟨fun present => ?_, steady.kept start text⟩
      exact congrArg some (steady.equal start text (present text rfl))

theorem Steady.expandAll (steady : Steady table keeps stands expansion) (start : keeps memory)
    (texts : List String) : keeps (expandAll table memory texts).2 := by
  induction texts generalizing memory with
  | nil => exact start
  | cons text rest ih => exact ih (steady.kept start text)

end Steady

end ClassAtlas.Interpolation
