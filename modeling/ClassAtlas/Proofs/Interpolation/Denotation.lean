import ClassAtlas.Proofs.Interpolation.Evaluation
import Mathlib

/-!
# What references stand for

`Denotes` says what segments stand for without a memory and without a list of active
properties: a reference stands for what the value of its property stands for, and a
reference of a value to its own property stands as it is written.  Segments stand for
something exactly when no reference in them leads to properties that refer to each
other in a circle (`exists_denotes`, `Denotes.not_loops`).

The main statement: what segments stand for is what they expand to, whatever properties
were expanded before, also over a table that has such circles elsewhere
(`Expands.denotes`).
-/

namespace ClassAtlas.Interpolation

open Relation (TransGen ReflTransGen)

/-- The key that a reference names. -/
def Segment.key? : Segment → Option String
  | .plain _ => none
  | .reference inside => some (keyOf inside)

/-- The segments refer to a key of the table. -/
def Mentions (table : PropertyTable) (pieces : List Segment) (key : String) : Prop :=
  key ∈ pieces.filterMap Segment.key? ∧ (table.get? key).isSome

/-- The value of the one key refers to the other, and they are different. -/
def RefersTo (table : PropertyTable) (source target : String) : Prop :=
  source ≠ target ∧
    ∃ value, table.get? source = some value ∧ Mentions table (segments value.toList) target

/-- No reference in the segments leads to a key from which another key leads back to it. -/
def Untangled (table : PropertyTable) (pieces : List Segment) : Prop :=
  ∀ start, Mentions table pieces start →
    ∀ key, ReflTransGen (RefersTo table) start key → ¬TransGen (RefersTo table) key key

section Mentions

variable {table : PropertyTable} {piece : Segment} {rest : List Segment} {key value : String}
variable {inside : List Char}

theorem Mentions.cons (mentions : Mentions table rest key) : Mentions table (piece :: rest) key := by
  obtain ⟨member, known⟩ := mentions
  rw [← List.singleton_append, Mentions, List.filterMap_append]
  exact ⟨List.mem_append_right _ member, known⟩

theorem mentions_head (known : table.get? (keyOf inside) = some value) :
    Mentions table (.reference inside :: rest) (keyOf inside) :=
  ⟨List.mem_cons_self, by rw [known]; rfl⟩

theorem mentions_reference (mentions : Mentions table (.reference inside :: rest) key) :
    keyOf inside = key ∨ Mentions table rest key := by
  obtain ⟨member, known⟩ := mentions
  rcases List.mem_cons.1 member with same | later
  · exact .inl same.symm
  · exact .inr ⟨later, known⟩

theorem RefersTo.mentions {source target : String} (refers : RefersTo table source target)
    (known : table.get? source = some value) :
    Mentions table (segments value.toList) target := by
  obtain ⟨-, other, isValue, mentions⟩ := refers
  rw [known] at isValue
  cases isValue
  exact mentions

end Mentions

/-! ## What segments stand for -/

/-- `Denotes table owner pieces expanded`: in the value of `owner`, or in a text of its
own, the segments stand for `expanded`. -/
inductive Denotes (table : PropertyTable) :
    Option String → List Segment → List Char → Prop where
  | nil {owner : Option String} : Denotes table owner [] []
  | plain {owner : Option String} {rest : List Segment} {text expanded : List Char} :
      Denotes table owner rest expanded →
      Denotes table owner (.plain text :: rest) (text ++ expanded)
  | unknown {owner : Option String} {rest : List Segment} {inside expanded : List Char} :
      table.get? (keyOf inside) = none →
      Denotes table owner rest expanded →
      Denotes table owner (.reference inside :: rest) (written inside ++ expanded)
  | own {owner : Option String} {rest : List Segment} {inside expanded : List Char}
      {value : String} :
      table.get? (keyOf inside) = some value → owner = some (keyOf inside) →
      Denotes table owner rest expanded →
      Denotes table owner (.reference inside :: rest) (written inside ++ expanded)
  | other {owner : Option String} {rest : List Segment} {inside inner expanded : List Char}
      {value : String} :
      table.get? (keyOf inside) = some value → owner ≠ some (keyOf inside) →
      Denotes table (some (keyOf inside)) (segments value.toList) inner →
      Denotes table owner rest expanded →
      Denotes table owner (.reference inside :: rest)
        (settle (keyOf inside) inner ++ expanded)

section Circles

variable {table : PropertyTable}

/-- From the keys to which such segments refer no chain of references goes on for ever. -/
theorem Denotes.acc {owner : Option String} {pieces : List Segment} {expanded : List Char}
    (denotes : Denotes table owner pieces expanded) {key : String}
    (mentions : Mentions table pieces key) (foreign : owner ≠ some key) :
    Acc (Function.swap (RefersTo table)) key := by
  induction denotes generalizing key with
  | nil => exact absurd mentions.1 List.not_mem_nil
  | plain _ ih => exact ih mentions foreign
  | unknown unknown _ ih =>
      rcases mentions_reference mentions with rfl | later
      · have known := mentions.2
        rw [unknown] at known
        cases known
      · exact ih later foreign
  | own _ isOwner _ ih =>
      rcases mentions_reference mentions with rfl | later
      · exact absurd isOwner foreign
      · exact ih later foreign
  | other known _ _ _ innerIH restIH =>
      rcases mentions_reference mentions with rfl | later
      · constructor
        intro target refers
        apply innerIH (refers.mentions known)
        intro same
        exact refers.1 (Option.some.inj same)
      · exact restIH later foreign

theorem not_loops_of_acc {key : String} (accessible : Acc (Function.swap (RefersTo table)) key) :
    ¬TransGen (RefersTo table) key key := by
  induction accessible with
  | intro key _ ih =>
      intro loops
      obtain ⟨next, refers, back⟩ := TransGen.head'_iff.1 loops
      exact ih next refers (TransGen.tail' back refers)

/-- Segments that stand for something refer to no key of a circle. -/
theorem Denotes.not_loops {owner : Option String} {pieces : List Segment} {expanded : List Char}
    (denotes : Denotes table owner pieces expanded) {key : String}
    (mentions : Mentions table pieces key) (foreign : owner ≠ some key) :
    ¬TransGen (RefersTo table) key key :=
  not_loops_of_acc (denotes.acc mentions foreign)

/-- Segments stand for something as soon as the values of their references do. -/
theorem exists_denotes_of_values {owner : Option String} {pieces : List Segment}
    (values : ∀ key value, Mentions table pieces key → owner ≠ some key →
      table.get? key = some value →
      ∃ inner, Denotes table (some key) (segments value.toList) inner) :
    ∃ expanded, Denotes table owner pieces expanded := by
  induction pieces with
  | nil => exact ⟨[], .nil⟩
  | cons piece rest ih =>
      obtain ⟨expanded, denotes⟩ := ih fun key value mentions => values key value mentions.cons
      cases piece with
      | plain text => exact ⟨_, .plain denotes⟩
      | reference inside =>
          cases known : table.get? (keyOf inside) with
          | none => exact ⟨_, .unknown known denotes⟩
          | some value =>
              by_cases isOwner : owner = some (keyOf inside)
              · exact ⟨_, .own known isOwner denotes⟩
              · obtain ⟨inner, inside⟩ := values _ value (mentions_head known) isOwner known
                exact ⟨_, .other known isOwner inside denotes⟩

theorem finite_descendants (key : String) : {later | TransGen (RefersTo table) key later}.Finite := by
  apply (List.finite_toSet table.keys).subset
  intro later leads
  obtain ⟨previous, -, -, value, -, mentions⟩ := TransGen.tail'_iff.1 leads
  exact KeyedTable.isSome_get?_iff.1 mentions.2

/-- A key out of any circle leads to more keys than the keys that it refers to. -/
theorem ncard_descendants_lt {key next : String} (refers : RefersTo table key next)
    (clear : ¬TransGen (RefersTo table) next next) :
    {later | TransGen (RefersTo table) next later}.ncard <
      {later | TransGen (RefersTo table) key later}.ncard := by
  apply Set.ncard_lt_ncard _ (finite_descendants key)
  constructor
  · intro later leads
    exact TransGen.head refers leads
  · intro within
    exact clear (within (TransGen.single refers))

/-- The value of a key that leads to no circle stands for something. -/
theorem exists_denotes_value {key value : String} (known : table.get? key = some value)
    (clear : ∀ later, ReflTransGen (RefersTo table) key later →
      ¬TransGen (RefersTo table) later later) :
    ∃ inner, Denotes table (some key) (segments value.toList) inner := by
  apply exists_denotes_of_values
  intro next nextValue mentions foreign nextKnown
  have refers : RefersTo table key next :=
    ⟨fun same => foreign (congrArg some same), value, known, mentions⟩
  have nextClear : ∀ later, ReflTransGen (RefersTo table) next later →
      ¬TransGen (RefersTo table) later later :=
    fun later leads => clear later (leads.head refers)
  have fewer := ncard_descendants_lt refers (nextClear next .refl)
  exact exists_denotes_value nextKnown nextClear
termination_by {later | TransGen (RefersTo table) key later}.ncard

/-- Segments that lead to no circle stand for something. -/
theorem exists_denotes {pieces : List Segment} (untangled : Untangled table pieces)
    (owner : Option String) : ∃ expanded, Denotes table owner pieces expanded := by
  apply exists_denotes_of_values
  intro key value mentions _ known
  exact exists_denotes_value known (untangled key mentions)

/-- When ranks fall along the references within a region that is not left, segments that
refer into the region lead to no circle. -/
theorem untangled_of_descent {pieces : List Segment} (region : List String) (rank : String → Nat)
    (enters : ∀ key ∈ pieces.filterMap Segment.key?, table.get? key = none ∨ key ∈ region)
    (falls : ∀ key ∈ region, ∀ value ∈ table.get? key,
      ∀ next ∈ (segments value.toList).filterMap Segment.key?,
        key = next ∨ table.get? next = none ∨ next ∈ region ∧ rank next < rank key) :
    Untangled table pieces := by
  have step : ∀ {key next}, key ∈ region → RefersTo table key next →
      next ∈ region ∧ rank next < rank key := by
    intro key next member refers
    obtain ⟨apart, value, isValue, mentions, known⟩ := refers
    rcases falls key member value isValue next mentions with same | unknown | lower
    · exact absurd same apart
    · rw [unknown] at known
      cases known
    · exact lower
  have walk : ∀ {key later}, key ∈ region → TransGen (RefersTo table) key later →
      later ∈ region ∧ rank later < rank key := by
    intro key later member leads
    induction leads with
    | single refers => exact step member refers
    | tail _ refers ih =>
        obtain ⟨still, lower⟩ := step ih.1 refers
        exact ⟨still, lower.trans ih.2⟩
  intro start mentions key leads loops
  have first : start ∈ region := by
    rcases enters start mentions.1 with unknown | member
    · have known := mentions.2
      rw [unknown] at known
      cases known
    · exact member
  have member : key ∈ region := by
    rcases Relation.reflTransGen_iff_eq_or_transGen.1 leads with same | leads
    · exact same ▸ first
    · exact (walk first leads).1
  exact absurd (walk member loops).2 (lt_irrefl _)

end Circles

/-! ## Expansion gives what segments stand for -/

/-- What is remembered for a key is what its value stands for, if that is anything. -/
def Faithful (table : PropertyTable) (memory : Memory) : Prop :=
  ∀ key piece, memory.lookup key = some piece → ∀ value inner, table.get? key = some value →
    Denotes table (some key) (segments value.toList) inner → piece = settle key inner

/-- Every active property leads to whatever the segments refer to, save for a reference
of the innermost one to itself. -/
def Trail (table : PropertyTable) (active : List String) (pieces : List Segment) : Prop :=
  ∀ outer ∈ active, ∀ key, Mentions table pieces key → active.head? ≠ some key →
    TransGen (RefersTo table) outer key

section Expansion

variable {table : PropertyTable}

theorem faithful_nil : Faithful table [] := by
  intro key piece found
  cases found

theorem Faithful.cons {memory : Memory} {key value : String} {inner : List Char}
    (faithful : Faithful table memory) (known : table.get? key = some value)
    (denoted : ∀ other, Denotes table (some key) (segments value.toList) other → inner = other) :
    Faithful table ((key, settle key inner) :: memory) := by
  apply forall_lookup_cons faithful
  intro other otherInner isOther denotes
  rw [known] at isOther
  cases isOther
  rw [denoted otherInner denotes]

theorem trail_nil (pieces : List Segment) : Trail table [] pieces := by
  intro outer member
  cases member

theorem Trail.tail {active : List String} {piece : Segment} {rest : List Segment}
    (trail : Trail table active (piece :: rest)) : Trail table active rest :=
  fun outer member key mentions => trail outer member key mentions.cons

theorem head?_ne {active : List String} {key : String} (free : key ∉ active) :
    active.head? ≠ some key :=
  fun isHead => free (List.mem_of_head? isHead)

/-- The trail goes on in the value of a property that is not active. -/
theorem Trail.value {active : List String} {inside : List Char} {value : String}
    {rest : List Segment} (trail : Trail table active (.reference inside :: rest))
    (known : table.get? (keyOf inside) = some value) (free : keyOf inside ∉ active) :
    Trail table (keyOf inside :: active) (segments value.toList) := by
  intro outer member key mentions foreign
  have refers : RefersTo table (keyOf inside) key :=
    ⟨fun same => foreign (congrArg some same), value, known, mentions⟩
  rcases List.mem_cons.1 member with rfl | active
  · exact .single refers
  · exact (trail outer active _ (mentions_head known) (head?_ne free)).tail refers

/-- Segments expand to what they stand for.  Whether they stand for anything or not,
what is remembered afterwards is faithful. -/
theorem Expands.denotes {active : List String} {memory memory' : Memory}
    {pieces : List Segment} {expanded : List Char}
    (expands : Expands table active memory pieces expanded memory')
    (faithful : Faithful table memory) (trail : Trail table active pieces) :
    (∀ denoted, Denotes table active.head? pieces denoted → expanded = denoted) ∧
      Faithful table memory' := by
  induction expands with
  | nil =>
      refine ⟨fun denoted denotes => ?_, faithful⟩
      cases denotes
      rfl
  | plain _ ih =>
      obtain ⟨equal, after⟩ := ih faithful trail.tail
      refine ⟨fun denoted denotes => ?_, after⟩
      cases denotes with
      | plain denotes => rw [equal _ denotes]
  | unknown unknown _ ih =>
      obtain ⟨equal, after⟩ := ih faithful trail.tail
      refine ⟨fun denoted denotes => ?_, after⟩
      cases denotes with
      | unknown _ denotes => rw [equal _ denotes]
      | own known _ _ => rw [unknown] at known; cases known
      | other known _ _ _ => rw [unknown] at known; cases known
  | active known busy _ ih =>
      obtain ⟨equal, after⟩ := ih faithful trail.tail
      refine ⟨fun denoted denotes => ?_, after⟩
      cases denotes with
      | unknown unknown _ => rw [unknown] at known; cases known
      | own _ _ denotes => rw [equal _ denotes]
      | other known' foreign inner denotes =>
          -- An active property that is not the innermost leads to itself.
          have whole := Denotes.other known' foreign inner denotes
          have loops := trail _ busy _ (mentions_head known) foreign
          exact absurd loops (whole.not_loops (mentions_head known) foreign)
  | remembered known free remembered _ ih =>
      obtain ⟨equal, after⟩ := ih faithful trail.tail
      refine ⟨fun denoted denotes => ?_, after⟩
      cases denotes with
      | unknown unknown _ => rw [unknown] at known; cases known
      | own _ isOwner _ => exact absurd isOwner (head?_ne free)
      | other known' _ inner denotes =>
          rw [equal _ denotes, faithful _ _ remembered _ _ known' inner]
  | fresh known free _ _ _ innerIH restIH =>
      obtain ⟨innerEqual, between⟩ := innerIH faithful (trail.value known free)
      obtain ⟨equal, after⟩ := restIH (between.cons known innerEqual) trail.tail
      refine ⟨fun denoted denotes => ?_, after⟩
      cases denotes with
      | unknown unknown _ => rw [unknown] at known; cases known
      | own _ isOwner _ => exact absurd isOwner (head?_ne free)
      | other known' _ inner denotes =>
          rw [known] at known'
          cases known'
          rw [innerEqual _ inner, equal _ denotes]

end Expansion

end ClassAtlas.Interpolation
