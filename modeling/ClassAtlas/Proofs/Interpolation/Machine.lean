import ClassAtlas.Proofs.Interpolation.Evaluation
import Mathlib

/-!
# Expansion as a machine

The recursion of `expandSegments` taken apart into single steps.  A state holds the
text that is being expanded, a frame for each property whose value led there, the
memory, and which values have been taken apart so far; it covers all the texts that
one memory serves.

The main statements: the machine answers what `expandAll` answers
(`reaches_expandAll`); a property is taken apart only while it is neither active nor
remembered (`Invariant.step`); and no course of steps goes on for ever
(`not_endless`), because each value is taken apart once and in between the work left
shrinks.
-/

namespace ClassAtlas.Interpolation

/-- A property whose value is being expanded: what follows the reference to it, and
what the text before the reference expanded to. -/
structure Frame where
  key : String
  rest : List Segment
  front : List Char

/-- The text at which the machine works. -/
inductive Focus where
  | idle
  | expanding (pieces : List Segment) (front : List Char) (frames : List Frame)

/-- A state of the expansion of texts with one memory. -/
structure State where
  focus : Focus
  memory : Memory
  /-- The keys of the values that were taken apart, the latest first. -/
  scanned : List String
  answers : List String
  waiting : List String

namespace State

/-- The machine before the first of the texts. -/
def start (texts : List String) : State := ⟨.idle, [], [], [], texts⟩

/-- The keys of the properties that are being expanded, innermost first. -/
def active (state : State) : List String :=
  match state.focus with
  | .idle => []
  | .expanding _ _ frames => frames.map Frame.key

end State

/-- A step of the machine. -/
inductive Step (table : PropertyTable) : State → State → Prop where
  | begin {memory : Memory} {scanned answers waiting : List String} {text : String} :
      Step table ⟨.idle, memory, scanned, answers, text :: waiting⟩
        ⟨.expanding (segments text.toList) [] [], memory, scanned, answers, waiting⟩
  | plain {memory : Memory} {scanned answers waiting : List String} {frames : List Frame}
      {rest : List Segment} {text front : List Char} :
      Step table ⟨.expanding (.plain text :: rest) front frames, memory, scanned, answers,
          waiting⟩
        ⟨.expanding rest (front ++ text) frames, memory, scanned, answers, waiting⟩
  | unknown {memory : Memory} {scanned answers waiting : List String}
      {frames : List Frame} {rest : List Segment} {inside front : List Char} :
      table.get? (keyOf inside) = none →
      Step table ⟨.expanding (.reference inside :: rest) front frames, memory, scanned,
          answers, waiting⟩
        ⟨.expanding rest (front ++ written inside) frames, memory, scanned, answers, waiting⟩
  | active {memory : Memory} {scanned answers waiting : List String} {value : String}
      {frames : List Frame} {rest : List Segment} {inside front : List Char} :
      table.get? (keyOf inside) = some value → keyOf inside ∈ frames.map Frame.key →
      Step table ⟨.expanding (.reference inside :: rest) front frames, memory, scanned,
          answers, waiting⟩
        ⟨.expanding rest (front ++ written inside) frames, memory, scanned, answers, waiting⟩
  | remembered {memory : Memory} {scanned answers waiting : List String} {value : String}
      {frames : List Frame} {rest : List Segment} {inside piece front : List Char} :
      table.get? (keyOf inside) = some value → keyOf inside ∉ frames.map Frame.key →
      memory.lookup (keyOf inside) = some piece →
      Step table ⟨.expanding (.reference inside :: rest) front frames, memory, scanned,
          answers, waiting⟩
        ⟨.expanding rest (front ++ piece) frames, memory, scanned, answers, waiting⟩
  /-- The value of the property is taken apart. -/
  | enter {memory : Memory} {scanned answers waiting : List String} {value : String}
      {frames : List Frame} {rest : List Segment} {inside front : List Char} :
      table.get? (keyOf inside) = some value → keyOf inside ∉ frames.map Frame.key →
      memory.lookup (keyOf inside) = none →
      Step table ⟨.expanding (.reference inside :: rest) front frames, memory, scanned,
          answers, waiting⟩
        ⟨.expanding (segments value.toList) [] (⟨keyOf inside, rest, front⟩ :: frames),
          memory, keyOf inside :: scanned, answers, waiting⟩
  /-- The value is expanded and remembered. -/
  | leave {memory : Memory} {scanned answers waiting : List String} {frame : Frame}
      {frames : List Frame} {expanded : List Char} :
      Step table ⟨.expanding [] expanded (frame :: frames), memory, scanned, answers, waiting⟩
        ⟨.expanding frame.rest (frame.front ++ settle frame.key expanded) frames,
          (frame.key, settle frame.key expanded) :: memory, scanned, answers, waiting⟩
  | finish {memory : Memory} {scanned answers waiting : List String}
      {expanded : List Char} :
      Step table ⟨.expanding [] expanded [], memory, scanned, answers, waiting⟩
        ⟨.idle, memory, scanned, answers ++ [String.ofList expanded], waiting⟩

/-- The states that can follow after any number of steps. -/
abbrev Reaches (table : PropertyTable) : State → State → Prop :=
  Relation.ReflTransGen (Step table)

/-- At most one step is possible in a state. -/
theorem step_rightUnique (table : PropertyTable) : Relator.RightUnique (Step table) := by
  intro state left right first second
  cases first with
  | begin => cases second with
    | begin => rfl
  | plain => cases second with
    | plain => rfl
  | unknown unknown => cases second with
    | unknown _ => rfl
    | active known _ => simp [unknown] at known
    | remembered known _ _ => simp [unknown] at known
    | enter known _ _ => simp [unknown] at known
  | active known busy => cases second with
    | unknown unknown => simp [unknown] at known
    | active _ _ => rfl
    | remembered _ free _ => exact absurd busy free
    | enter _ free _ => exact absurd busy free
  | remembered known free remembered => cases second with
    | unknown unknown => simp [unknown] at known
    | active _ busy => exact absurd busy free
    | remembered _ _ again =>
        rw [remembered] at again
        cases again
        rfl
    | enter _ _ forgotten => simp [forgotten] at remembered
  | enter known free forgotten => cases second with
    | unknown unknown => simp [unknown] at known
    | active _ busy => exact absurd busy free
    | remembered _ _ remembered => simp [forgotten] at remembered
    | enter again _ _ =>
        rw [known] at again
        cases again
        rfl
  | leave => cases second with
    | leave => rfl
  | finish => cases second with
    | finish => rfl

/-! ## The machine and the recursion -/

section Simulation

variable {table : PropertyTable}

/-- From any point at which the keys of the frames are active, the machine expands the
segments as the rules do. -/
theorem Expands.reaches {memory memory' : Memory} {pieces : List Segment}
    {expanded : List Char} {frames : List Frame}
    (expands : Expands table (frames.map Frame.key) memory pieces expanded memory')
    (answers waiting : List String) (front : List Char) (scanned : List String) :
    ∃ scanned',
      Reaches table ⟨.expanding pieces front frames, memory, scanned, answers, waiting⟩
        ⟨.expanding [] (front ++ expanded) frames, memory', scanned', answers, waiting⟩ := by
  generalize same : frames.map Frame.key = active at expands
  induction expands generalizing frames front scanned with
  | nil =>
      rw [List.append_nil]
      exact ⟨scanned, .refl⟩
  | plain _ ih =>
      obtain ⟨scanned', later⟩ := ih (front ++ _) scanned same
      rw [← List.append_assoc]
      exact ⟨scanned', .head .plain later⟩
  | unknown unknown _ ih =>
      obtain ⟨scanned', later⟩ := ih (front ++ _) scanned same
      rw [← List.append_assoc]
      exact ⟨scanned', .head (.unknown unknown) later⟩
  | active known busy _ ih =>
      obtain ⟨scanned', later⟩ := ih (front ++ _) scanned same
      rw [← List.append_assoc]
      exact ⟨scanned', .head (.active known (same ▸ busy)) later⟩
  | remembered known free remembered _ ih =>
      obtain ⟨scanned', later⟩ := ih (front ++ _) scanned same
      rw [← List.append_assoc]
      exact ⟨scanned', .head (.remembered known (same ▸ free) remembered) later⟩
  | @fresh active memory between memory' rest inside inner expanded value known free
      forgotten _ _ innerIH restIH =>
      subst same
      let frame : Frame := ⟨keyOf inside, rest, front⟩
      obtain ⟨scanned₁, nested⟩ :=
        @innerIH (frame :: frames) [] (keyOf inside :: scanned) rfl
      obtain ⟨scanned₂, later⟩ :=
        @restIH frames (front ++ settle (keyOf inside) inner) scanned₁ rfl
      rw [← List.append_assoc]
      exact ⟨scanned₂, .head (.enter known free forgotten)
        (nested.trans (.head .leave later))⟩

/-- The machine answers the texts as `expandAll` does, and ends. -/
theorem reaches_expandAll (table : PropertyTable) (texts : List String) (memory : Memory)
    (scanned answers : List String) :
    ∃ scanned',
      Reaches table ⟨.idle, memory, scanned, answers, texts⟩
        ⟨.idle, (expandAll table memory texts).2, scanned',
          answers ++ (expandAll table memory texts).1, []⟩ := by
  induction texts generalizing memory scanned answers with
  | nil => exact ⟨scanned, by simpa only [expandAll, List.append_nil] using .refl⟩
  | cons text rest ih =>
      have expands : Expands table (([] : List Frame).map Frame.key) memory _ _ _ :=
        expands_expandSegments table [] memory (segments text.toList)
      obtain ⟨scanned₁, worked⟩ := expands.reaches answers rest [] scanned
      obtain ⟨scanned₂, later⟩ := ih (expandSegments table [] memory (segments text.toList)).2
        scanned₁ (answers ++ [(expand table memory text).1])
      refine ⟨scanned₂, .head .begin (worked.trans (.head .finish ?_))⟩
      simpa only [expandAll, expand, List.nil_append, List.append_assoc,
        List.singleton_append] using later

end Simulation

/-! ## What every step keeps -/

/-- The values taken apart are those of the active and of the remembered properties,
each of them once, and all of them are in the table. -/
structure Invariant (table : PropertyTable) (state : State) : Prop where
  accounted : state.scanned.Perm (state.active ++ state.memory.map Prod.fst)
  once : state.scanned.Nodup
  known : ∀ key ∈ state.scanned, key ∈ table.keys

section Invariant

variable {table : PropertyTable}

theorem invariant_start (texts : List String) : Invariant table (.start texts) where
  accounted := List.Perm.nil
  once := List.nodup_nil
  known := fun _ member => absurd member List.not_mem_nil

theorem Invariant.step {state next : State} (invariant : Invariant table state)
    (step : Step table state next) : Invariant table next := by
  obtain ⟨accounted, once, known⟩ := invariant
  cases step with
  | begin => exact ⟨accounted, once, known⟩
  | plain => exact ⟨accounted, once, known⟩
  | unknown _ => exact ⟨accounted, once, known⟩
  | active _ _ => exact ⟨accounted, once, known⟩
  | remembered _ _ _ => exact ⟨accounted, once, known⟩
  | @enter memory scanned answers waiting value frames rest inside front found free
      forgotten =>
      have new : keyOf inside ∉ scanned := by
        intro member
        rcases List.mem_append.1 (accounted.subset member) with busy | remembered
        · exact free busy
        · obtain ⟨entry, member, same⟩ := List.mem_map.1 remembered
          have apart := List.lookup_eq_none_iff.1 forgotten entry member
          exact absurd same.symm (by simpa using apart)
      have present : keyOf inside ∈ table.keys :=
        KeyedTable.isSome_get?_iff.1 (by rw [found]; rfl)
      exact ⟨accounted.cons _, List.nodup_cons.2 ⟨new, once⟩,
        List.forall_mem_cons.2 ⟨present, known⟩⟩
  | leave => exact ⟨accounted.trans List.perm_middle.symm, once, known⟩
  | finish => exact ⟨accounted, once, known⟩

theorem Invariant.reaches {state later : State} (invariant : Invariant table state)
    (reaches : Reaches table state later) : Invariant table later := by
  induction reaches with
  | refl => exact invariant
  | tail _ step ih => exact ih.step step

theorem Invariant.active_nodup {state : State} (invariant : Invariant table state) :
    state.active.Nodup :=
  (List.nodup_append.1 (invariant.accounted.nodup_iff.1 invariant.once)).1

theorem Invariant.active_known {state : State} (invariant : Invariant table state)
    {key : String} (busy : key ∈ state.active) : key ∈ table.keys :=
  invariant.known key (invariant.accounted.symm.subset (List.mem_append_left _ busy))

theorem Invariant.length_active_le {state : State} (invariant : Invariant table state) :
    state.active.length ≤ table.keys.length :=
  (invariant.active_nodup.subperm fun _ => invariant.active_known).length_le

theorem Invariant.length_scanned_le {state : State} (invariant : Invariant table state) :
    state.scanned.length ≤ table.keys.length :=
  (invariant.once.subperm invariant.known).length_le

/-- An active property is not remembered. -/
theorem Invariant.lookup_active {state : State} (invariant : Invariant table state)
    {key : String} (busy : key ∈ state.active) : state.memory.lookup key = none := by
  rw [List.lookup_eq_none_iff]
  intro entry member
  have apart := List.nodup_append.1 (invariant.accounted.nodup_iff.1 invariant.once)
  have different := apart.2.2 key busy entry.1 (List.mem_map_of_mem member)
  simpa using different

/-- What is remembered is never overwritten. -/
theorem Invariant.lookup_step {state next : State} (invariant : Invariant table state)
    (step : Step table state next) {key : String} {piece : List Char}
    (remembered : state.memory.lookup key = some piece) :
    next.memory.lookup key = some piece := by
  cases step with
  | @leave memory scanned answers waiting frame frames expanded =>
      have busy : frame.key ∈ frame.key :: frames.map Frame.key := List.mem_cons_self
      have forgotten := invariant.lookup_active busy
      have apart : key ≠ frame.key := by
        intro same
        subst same
        exact absurd (forgotten.symm.trans remembered) (by simp)
      simpa [List.lookup_cons, beq_eq_false_iff_ne.2 apart] using remembered
  | _ => exact remembered

theorem Invariant.lookup_reaches {state later : State} (invariant : Invariant table state)
    (reaches : Reaches table state later) {key : String} {piece : List Char}
    (remembered : state.memory.lookup key = some piece) :
    later.memory.lookup key = some piece := by
  induction reaches with
  | refl => exact remembered
  | tail earlier step ih => exact (invariant.reaches earlier).lookup_step step ih

end Invariant

/-! ## The end of every course -/

/-- What is left to do before the next value is taken apart. -/
def Focus.work : Focus → Nat
  | .idle => 0
  | .expanding pieces _ frames =>
      1 + pieces.length + (frames.map fun frame => 1 + frame.rest.length).sum

/-- The values not yet taken apart, then the texts not yet begun, then the work left. -/
def State.measure (table : PropertyTable) (state : State) : ℕ ×ₗ ℕ ×ₗ ℕ :=
  toLex (table.keys.length - state.scanned.length,
    toLex (state.waiting.length, state.focus.work))

section Termination

variable {table : PropertyTable}

theorem State.measure_lt_iff {state next : State} :
    next.measure table < state.measure table ↔
      table.keys.length - next.scanned.length < table.keys.length - state.scanned.length ∨
        table.keys.length - next.scanned.length =
            table.keys.length - state.scanned.length ∧
          (next.waiting.length < state.waiting.length ∨
            next.waiting.length = state.waiting.length ∧
              next.focus.work < state.focus.work) := by
  simp only [State.measure, Prod.Lex.toLex_lt_toLex]

theorem Invariant.measure_lt {state next : State} (invariant : Invariant table state)
    (step : Step table state next) : next.measure table < state.measure table := by
  have room := (invariant.step step).length_scanned_le
  rw [State.measure_lt_iff]
  cases step with
  | begin => exact .inr ⟨rfl, .inl (Nat.lt_succ_self _)⟩
  | enter _ _ _ =>
      left
      simp only [List.length_cons] at room ⊢
      omega
  | leave =>
      refine .inr ⟨rfl, .inr ⟨rfl, ?_⟩⟩
      simp only [Focus.work, List.map_cons, List.sum_cons, List.length_nil]
      omega
  | finish => exact .inr ⟨rfl, .inr ⟨rfl, Nat.one_pos⟩⟩
  | _ =>
      refine .inr ⟨rfl, .inr ⟨rfl, ?_⟩⟩
      simp only [Focus.work, List.length_cons]
      omega

/-- No course of steps goes on for ever. -/
theorem not_endless {course : ℕ → State} (invariant : Invariant table (course 0)) :
    ¬∀ time, Step table (course time) (course (time + 1)) := by
  intro endless
  have always : ∀ time, Invariant table (course time) := by
    intro time
    induction time with
    | zero => exact invariant
    | succ time ih => exact ih.step (endless time)
  obtain ⟨time, stops⟩ :=
    WellFounded.not_rel_apply_succ (r := (· < ·)) fun time => (course time).measure table
  exact stops ((always time).measure_lt (endless time))

end Termination

end ClassAtlas.Interpolation
