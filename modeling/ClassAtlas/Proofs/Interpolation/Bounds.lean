import ClassAtlas.Proofs.Interpolation.Machine
import ClassAtlas.Proofs.Text.Blank

/-!
# Bounds on expansion

Whatever the table, cyclic or not, expansion ends and stays small.  What is remembered
for a property is no longer than `longestExpansion`, unless the bare reference to the
property already is; so each reference of a text adds at most that much to it.

The main statement is `expansion_bounded`, about every state that the machine goes
through and every text it is given.
-/

namespace ClassAtlas.Interpolation

open Text (byteLength)

/-! ## What is remembered -/

/-- Everything remembered is short, or as long as the reference to its property. -/
def Bounded (memory : Memory) : Prop :=
  ∀ key piece, memory.lookup key = some piece →
    byteLength piece ≤ max 65536 (byteLength key.toList + 3)

theorem byteLength_written (inside : List Char) :
    byteLength (written inside) = byteLength inside + 3 := by
  have opened : byteLength opening = 2 := by decide
  have closed : byteLength closing = 1 := by decide
  rw [written, Text.byteLength_append, Text.byteLength_append, opened, closed]
  omega

theorem byteLength_settle_le (key : String) (expanded : List Char) :
    byteLength (settle key expanded) ≤ max 65536 (byteLength key.toList + 3) := by
  rw [settle]
  split
  · exact (byteLength_written key.toList).le.trans (le_max_right _ _)
  · rename_i short
    exact (not_lt.1 short).trans (le_max_left _ _)

theorem bounded_nil : Bounded [] := by
  intro key piece remembered
  simp at remembered

theorem Bounded.cons {memory : Memory} (bounded : Bounded memory) (key : String)
    (expanded : List Char) : Bounded ((key, settle key expanded) :: memory) :=
  forall_lookup_cons bounded (byteLength_settle_le key expanded)

theorem Bounded.step {table : PropertyTable} {state next : State}
    (bounded : Bounded state.memory) (step : Step table state next) :
    Bounded next.memory := by
  cases step with
  | leave => exact bounded.cons _ _
  | _ => exact bounded

theorem Bounded.reaches {table : PropertyTable} {state later : State}
    (bounded : Bounded state.memory) (reaches : Reaches table state later) :
    Bounded later.memory := by
  induction reaches with
  | refl => exact bounded
  | tail _ step ih => exact ih.step step

/-! ## What a text expands to -/

/-- The number of places in a text at which a mark begins. -/
def occurrences (mark text : List Char) : Nat :=
  text.tails.countP (mark.isPrefixOf ·)

theorem occurrences_cons (mark text : List Char) (character : Char) :
    occurrences mark (character :: text) =
      occurrences mark text + if mark.isPrefixOf (character :: text) then 1 else 0 := by
  rw [occurrences, List.tails_cons, List.countP_cons]
  rfl

theorem occurrences_le_append (mark front text : List Char) :
    occurrences mark text ≤ occurrences mark (front ++ text) := by
  induction front with
  | nil => exact le_rfl
  | cons character front ih =>
      rw [List.cons_append, occurrences_cons]
      exact ih.trans (Nat.le_add_right _ _)

theorem occurrences_lt_append {mark : List Char} (nonempty : mark ≠ []) (text : List Char) :
    occurrences mark text < occurrences mark (mark ++ text) := by
  obtain ⟨first, rest, rfl⟩ := List.exists_cons_of_ne_nil nonempty
  have here : (first :: rest).isPrefixOf (first :: rest ++ text) = true :=
    List.isPrefixOf_iff_prefix.2 (List.prefix_append _ _)
  have later := occurrences_le_append (first :: rest) rest text
  rw [List.cons_append] at here ⊢
  rw [occurrences_cons, if_pos here]
  exact Nat.lt_succ_of_le later

/-- The number of bytes to which a segment can expand. -/
def allowance : Segment → Nat
  | .plain text => byteLength text
  | .reference inside => byteLength (written inside) + 65536

/-- The segments of a text are allowed its own length and the longest expansion for
each opening mark. -/
theorem sum_allowance_segments_le (text : List Char) :
    ((segments text).map allowance).sum ≤
      byteLength text + 65536 * occurrences opening text := by
  induction text using segments.induct with
  | case1 text unopened =>
      rw [segments_of_unopened unopened]
      exact Nat.le_add_right _ _
  | case2 text before rest opened unclosed =>
      rw [segments_of_unclosed opened unclosed]
      exact Nat.le_add_right _ _
  | case3 text before rest opened inside after closed ih =>
      have openingNonempty : opening ≠ [] := List.cons_ne_nil _ _
      have shape : text = before ++ (opening ++ (inside ++ closing ++ after)) := by
        rw [Text.cut_eq_some opened, Text.cut_eq_some closed, List.append_assoc]
      have here := occurrences_lt_append openingNonempty (inside ++ closing ++ after)
      have earlier :=
        occurrences_le_append opening before (opening ++ (inside ++ closing ++ after))
      have later := occurrences_le_append opening (inside ++ closing) after
      rw [segments_of_closed opened closed]
      rw [← shape] at earlier
      simp only [List.map_cons, List.sum_cons, allowance]
      have size : byteLength text = byteLength before + byteLength (written inside) +
          byteLength after := by
        simp only [shape, written, Text.byteLength_append]
        omega
      omega

/-- What is remembered for a property is within the allowance of a reference to it. -/
theorem le_allowance {inside piece : List Char}
    (short : byteLength piece ≤ max 65536 (byteLength (keyOf inside).toList + 3)) :
    byteLength piece ≤ allowance (.reference inside) := by
  have trimmed := Text.byteLength_trim_le inside
  rw [keyOf, String.toList_ofList] at short
  rw [allowance, byteLength_written]
  omega

/-- With a bounded memory the segments expand to no more than they are allowed, and the
memory stays bounded. -/
theorem Expands.byteLength_le {table : PropertyTable} {active : List String}
    {memory memory' : Memory} {pieces : List Segment} {expanded : List Char}
    (expands : Expands table active memory pieces expanded memory')
    (bounded : Bounded memory) :
    byteLength expanded ≤ (pieces.map allowance).sum ∧ Bounded memory' := by
  induction expands with
  | nil => exact ⟨le_rfl, bounded⟩
  | plain _ ih =>
      obtain ⟨short, after⟩ := ih bounded
      rw [Text.byteLength_append, List.map_cons, List.sum_cons]
      exact ⟨Nat.add_le_add_left short _, after⟩
  | unknown _ _ ih | active _ _ _ ih =>
      obtain ⟨short, after⟩ := ih bounded
      rw [Text.byteLength_append, List.map_cons, List.sum_cons]
      exact ⟨Nat.add_le_add (Nat.le_add_right _ _) short, after⟩
  | remembered _ _ remembered _ ih =>
      obtain ⟨short, after⟩ := ih bounded
      have piece := le_allowance (bounded _ _ remembered)
      rw [Text.byteLength_append, List.map_cons, List.sum_cons]
      exact ⟨Nat.add_le_add piece short, after⟩
  | @fresh _ _ _ _ _ inside inner _ _ _ _ _ _ _ innerIH restIH =>
      obtain ⟨short, after⟩ := restIH ((innerIH bounded).2.cons _ inner)
      have piece := le_allowance (byteLength_settle_le (keyOf inside) inner)
      rw [Text.byteLength_append, List.map_cons, List.sum_cons]
      exact ⟨Nat.add_le_add piece short, after⟩

theorem bounded_expandAll (table : PropertyTable) {memory : Memory}
    (bounded : Bounded memory) (texts : List String) :
    Bounded (expandAll table memory texts).2 := by
  induction texts generalizing memory with
  | nil => exact bounded
  | cons text rest ih =>
      have expands := expands_expandSegments table [] memory (segments text.toList)
      exact ih (expands.byteLength_le bounded).2

/-! ## Every state and every text -/

/-- What holds of a state of the machine that some texts lead to. -/
structure State.IsBounded (table : PropertyTable) (state : State) : Prop where
  active_nodup : state.active.Nodup
  active_known : ∀ key ∈ state.active, key ∈ table.keys
  depth : state.active.length ≤ table.keys.length
  /-- No value is taken apart twice. -/
  scanned_nodup : state.scanned.Nodup
  /-- What is remembered is short and never overwritten. -/
  memory_kept : ∀ key piece, state.memory.lookup key = some piece →
    byteLength piece ≤ max 65536 (byteLength key.toList + 3) ∧
      ∀ later, Reaches table state later → later.memory.lookup key = some piece

theorem isBounded_of_reaches {table : PropertyTable} {texts : List String} {state : State}
    (reaches : Reaches table (.start texts) state) : state.IsBounded table := by
  have invariant := (invariant_start texts).reaches reaches
  have bounded : Bounded state.memory := Bounded.reaches bounded_nil reaches
  exact {
    active_nodup := invariant.active_nodup
    active_known := fun _ => invariant.active_known
    depth := invariant.length_active_le
    scanned_nodup := invariant.once
    memory_kept := fun key piece remembered =>
      ⟨bounded key piece remembered, fun _ later => invariant.lookup_reaches later remembered⟩ }

/-- The expansion of any texts over any table ends, with the answers of `expandAll`; on
the way there every state is bounded; and a text grows by no more than the longest
expansion for each of its opening marks. -/
theorem expansion_bounded (table : PropertyTable) (texts : List String) :
    (∃ last : State, last.focus = .idle ∧ last.waiting = [] ∧
        (last.answers, last.memory) = expandAll table [] texts ∧
        ∀ state, Reaches table (.start texts) state → Reaches table state last) ∧
      (∀ course : ℕ → State, course 0 = .start texts →
        ¬∀ time, Step table (course time) (course (time + 1))) ∧
      (∀ state, Reaches table (.start texts) state → state.IsBounded table) ∧
      ∀ text, byteLength (expand table (expandAll table [] texts).2 text).1.toList ≤
        byteLength text.toList + 65536 * occurrences opening text.toList := by
  refine ⟨?_, ?_, fun state => isBounded_of_reaches, ?_⟩
  · obtain ⟨scanned, finished⟩ := reaches_expandAll table texts [] [] []
    rw [List.nil_append] at finished
    let last : State := ⟨.idle, (expandAll table [] texts).2, scanned,
      (expandAll table [] texts).1, []⟩
    refine ⟨last, rfl, rfl, rfl, fun state reaches => ?_⟩
    rcases Relation.ReflTransGen.total_of_right_unique (step_rightUnique table) reaches
      finished with later | earlier
    · exact later
    · rcases Relation.ReflTransGen.cases_head earlier with same | ⟨next, step, _⟩
      · exact same ▸ .refl
      · exact nomatch step
  · intro course begins
    exact not_endless (begins ▸ invariant_start texts)
  · intro text
    have bounded := bounded_expandAll table bounded_nil texts
    have expands := expands_expandSegments table [] (expandAll table [] texts).2
      (segments text.toList)
    have allowed := (expands.byteLength_le bounded).1
    rw [expand, String.toList_ofList]
    exact allowed.trans (sum_allowance_segments_le text.toList)

end ClassAtlas.Interpolation
