import ClassAtlas.Proofs.Descriptor.Fields
import ClassAtlas.Proofs.Descriptor.Resolution
import ClassAtlas.Proofs.Interpolation.Denotation

/-!
# Expansion and what went before it

One memory serves all texts that are expanded over a table, so that the texts before
could show in what a text expands to.  They do not where no reference of the text leads
into a circle of properties, and then a dependency is resolved as it is on its own
(`resolution_without_history`).  Over a circle they do: what is remembered for a property
was worked out while another one was being expanded (`not_without_history`).  But
whatever a text expands to first, it expands to from then on.
-/

namespace ClassAtlas

namespace Interpolation

/-! ## The same text again -/

/-- Everything that is remembered is still remembered later, and as the same. -/
def Extends (memory later : Memory) : Prop :=
  ∀ key piece, memory.lookup key = some piece → later.lookup key = some piece

section Repetition

variable {table : PropertyTable} {active : List String} {memory memory' later : Memory}
variable {pieces : List Segment} {expanded : List Char}

theorem Extends.refl (memory : Memory) : Extends memory memory := by
  intro key piece found
  exact found

theorem Extends.trans (first : Extends memory memory') (second : Extends memory' later) :
    Extends memory later := by
  intro key piece found
  exact second key piece (first key piece found)

theorem Extends.cons {key : String} {piece : List Char} (grows : Extends memory later)
    (forgotten : memory.lookup key = none) : Extends memory ((key, piece) :: later) := by
  intro other otherPiece found
  have apart : (other == key) = false := by
    rw [beq_eq_false_iff_ne]
    rintro rfl
    rw [forgotten] at found
    cases found
  rw [List.lookup_cons, apart]
  exact grows other otherPiece found

/-- Nothing that is remembered is worked out anew. -/
theorem Expands.extends (expands : Expands table active memory pieces expanded memory') :
    Extends memory memory' := by
  induction expands with
  | nil => exact .refl _
  | plain _ ih => exact ih
  | unknown _ _ ih => exact ih
  | active _ _ _ ih => exact ih
  | remembered _ _ _ _ ih => exact ih
  | fresh _ _ forgotten _ _ innerIH restIH => exact (innerIH.cons forgotten).trans restIH

/-- Segments that were expanded expand to the same with whatever is remembered later, and
nothing new is to be remembered. -/
theorem Expands.again (expands : Expands table active memory pieces expanded memory')
    (grows : Extends memory' later) : Expands table active later pieces expanded later := by
  induction expands with
  | nil => exact .nil
  | plain _ ih => exact .plain (ih grows)
  | unknown unknown _ ih => exact .unknown unknown (ih grows)
  | active known busy _ ih => exact .active known busy (ih grows)
  | remembered known free remembered rest ih =>
      have still := rest.extends.trans grows _ _ remembered
      exact .remembered known free still (ih grows)
  | fresh known free _ _ rest _ restIH =>
      have still := rest.extends.trans grows _ _ List.lookup_cons_self
      exact .remembered known free still (restIH grows)

/-- The rules determine what segments expand to. -/
theorem Expands.unique {other : List Char} {otherMemory : Memory}
    (expands : Expands table active memory pieces expanded memory')
    (again : Expands table active memory pieces other otherMemory) :
    expanded = other ∧ memory' = otherMemory := by
  induction expands generalizing other otherMemory with
  | nil => cases again with
    | nil => exact ⟨rfl, rfl⟩
  | plain _ ih => cases again with
    | plain rest =>
        obtain ⟨rfl, rfl⟩ := ih rest
        exact ⟨rfl, rfl⟩
  | unknown unknown _ ih => cases again with
    | unknown _ rest =>
        obtain ⟨rfl, rfl⟩ := ih rest
        exact ⟨rfl, rfl⟩
    | active known _ _ => simp [unknown] at known
    | remembered known _ _ _ => simp [unknown] at known
    | fresh known _ _ _ _ => simp [unknown] at known
  | active known busy _ ih => cases again with
    | unknown unknown _ => simp [unknown] at known
    | active _ _ rest =>
        obtain ⟨rfl, rfl⟩ := ih rest
        exact ⟨rfl, rfl⟩
    | remembered _ free _ _ => exact absurd busy free
    | fresh _ free _ _ _ => exact absurd busy free
  | remembered known free remembered _ ih => cases again with
    | unknown unknown _ => simp [unknown] at known
    | active _ busy _ => exact absurd busy free
    | remembered _ _ same rest =>
        rw [remembered] at same
        cases same
        obtain ⟨rfl, rfl⟩ := ih rest
        exact ⟨rfl, rfl⟩
    | fresh _ _ forgotten _ _ => simp [forgotten] at remembered
  | fresh known free forgotten _ _ innerIH restIH => cases again with
    | unknown unknown _ => simp [unknown] at known
    | active _ busy _ => exact absurd busy free
    | remembered _ _ remembered _ => simp [forgotten] at remembered
    | fresh same _ _ inner rest =>
        rw [known] at same
        cases same
        obtain ⟨rfl, rfl⟩ := innerIH inner
        obtain ⟨rfl, rfl⟩ := restIH rest
        exact ⟨rfl, rfl⟩

end Repetition

/-! ## Texts one after another -/

section Texts

variable {table : PropertyTable} {memory later : Memory}

/-- What a text expands to when nothing was expanded before. -/
def alone (table : PropertyTable) (text : String) : String :=
  (expand table [] text).1

theorem expands_expand (table : PropertyTable) (memory : Memory) (text : String) :
    ∃ expanded, (expand table memory text).1 = String.ofList expanded ∧
      Expands table [] memory (segments text.toList) expanded (expand table memory text).2 :=
  ⟨_, rfl, expands_expandSegments table [] memory (segments text.toList)⟩

theorem expand_again {text : String} (grows : Extends (expand table memory text).2 later) :
    (expand table later text).1 = (expand table memory text).1 := by
  obtain ⟨expanded, isExpanded, expands⟩ := expands_expand table memory text
  obtain ⟨other, isOther, again⟩ := expands_expand table later text
  rw [isExpanded, isOther, (again.unique (expands.again grows)).1]

theorem extends_expandAll (memory : Memory) (texts : List String) :
    Extends memory (expandAll table memory texts).2 := by
  induction texts generalizing memory with
  | nil => exact .refl memory
  | cons text rest ih =>
      obtain ⟨_, -, expands⟩ := expands_expand table memory text
      exact expands.extends.trans (ih _)

theorem expandAll_append (memory : Memory) (first second : List String) :
    (expandAll table memory (first ++ second)).2 =
      (expandAll table (expandAll table memory first).2 second).2 := by
  induction first generalizing memory with
  | nil => rfl
  | cons text rest ih => exact ih _

/-- A text that leads to no circle expands as on its own, and any text leaves a faithful
memory. -/
theorem Faithful.expand (faithful : Faithful table memory) (text : String) :
    (Untangled table (segments text.toList) → (expand table memory text).1 = alone table text) ∧
      Faithful table (expand table memory text).2 := by
  have warm := (expands_expandSegments table [] memory (segments text.toList)).denotes faithful
    (trail_nil _)
  have cold := (expands_expandSegments table [] [] (segments text.toList)).denotes faithful_nil
    (trail_nil _)
  refine ⟨fun untangled => ?_, warm.2⟩
  obtain ⟨denoted, denotes⟩ := exists_denotes untangled none
  exact congrArg String.ofList ((warm.1 _ denotes).trans (cold.1 _ denotes).symm)

theorem steady_faithful (table : PropertyTable) :
    Steady table (Faithful table) (fun text => Untangled table (segments text.toList))
      (alone table) where
  equal faithful text := (faithful.expand text).1
  kept faithful text := (faithful.expand text).2

end Texts

end Interpolation

namespace Descriptor

open Interpolation

/-! ## Dependencies one after another -/

/-- No text of the declaration leads to a circle of properties. -/
def Declared.IsUntangled (table : PropertyTable) (declared : Declared) : Prop :=
  ∀ field ∈ declared.fields, ∀ text ∈ field, Untangled table (segments text.toList)

/-- Each declaration that leads to no circle is resolved as it is on its own, whatever the
others lead to. -/
theorem exists_resolutions {table : PropertyTable} {memory : Memory}
    (faithful : Faithful table memory) (declarations : List Declared) :
    ∃ resolutions, resolveDependencies table memory declarations = resolutions.reduceOption ∧
      List.Forall₂ (fun declared resolution => declared.IsUntangled table →
        resolution = declared.expected (alone table)) declarations resolutions := by
  induction declarations generalizing memory with
  | nil => exact ⟨[], rfl, .nil⟩
  | cons declared rest ih =>
      obtain ⟨own, after⟩ := declared.resolve_of_steady (steady_faithful table) faithful
      obtain ⟨resolutions, equal, others⟩ := ih after
      refine ⟨(declared.resolve table memory).1 :: resolutions, ?_, .cons own others⟩
      simp only [resolveDependencies, equal]
      cases (declared.resolve table memory).1 with
      | none => rfl
      | some dependency => rfl

/-! ## Histories -/

/-- A text that leads to no circle expands, and a dependency whose texts lead to none is
resolved, as if nothing had been expanded before; and any text expands to the same from
its first expansion on. -/
theorem resolution_without_history (table : PropertyTable) :
    (∀ earlier text, Untangled table (segments text.toList) →
      (expand table (expandAll table [] earlier).2 text).1 = (expand table [] text).1) ∧
    (∀ earlier text later,
      (expand table (expandAll table [] (earlier ++ text :: later)).2 text).1 =
        (expand table (expandAll table [] earlier).2 text).1) ∧
    ∀ declarations, ∃ resolutions,
      resolveDependencies table [] declarations = resolutions.reduceOption ∧
      List.Forall₂ (fun declared resolution => declared.IsUntangled table →
        resolution = declared.expected fun text => (expand table [] text).1)
        declarations resolutions := by
  refine ⟨?_, ?_, exists_resolutions faithful_nil⟩
  · intro earlier text
    exact (((steady_faithful table).expandAll faithful_nil earlier).expand text).1
  · intro earlier text later
    rw [expandAll_append]
    exact expand_again (extends_expandAll _ later)

/-- Two properties that refer to each other beside one that refers to itself. -/
def circle : PropertyTable :=
  .ofList [("a", "$\x7bb\x7d"), ("b", "$\x7ba\x7d"), ("self", "x$\x7bself\x7d"),
    ("v", "1"), ("full", "$\x7bv\x7d-$\x7bself\x7d")]

/-- A dependency whose version leads to the circle. -/
def entangled : Declared where
  group := some "g"
  artifact := some "a"
  version := some "$\x7bb\x7d"

/-- A dependency that passes by the circle. -/
def aloof : Declared where
  group := some "g"
  artifact := some "b"
  version := some "<$\x7bfull\x7d>"

theorem isUntangled_aloof : aloof.IsUntangled circle := by
  intro field member text isText
  apply untangled_of_descent ["full", "v", "self"] fun key => if key = "full" then 1 else 0
  · revert field text
    decide +kernel
  · decide +kernel

theorem alone_version : (expand circle [] "<$\x7bfull\x7d>").1 = "<1-x$\x7bself\x7d>" := by cbv

theorem alone_group : (expand circle [] "g").1 = "g" := by cbv

theorem alone_artifact : (expand circle [] "b").1 = "b" := by cbv

theorem expected_aloof : aloof.expected (fun text => (expand circle [] text).1) =
    some { group := "g", artifact := "b", version := "<1-x$\x7bself\x7d>" } := by
  simp only [Declared.expected, aloof, Option.bind_eq_bind, Option.bind_some, Option.map_some,
    alone_group, alone_artifact, alone_version]
  decide

theorem resolution_of_aloof :
    aloof.IsUntangled circle ∧
      (expand circle (expandAll circle [] ["$\x7ba\x7d", "$\x7bb\x7d"]).2 "<$\x7bfull\x7d>").1 =
        "<1-x$\x7bself\x7d>" ∧
      ∃ first, resolveDependencies circle [] [entangled, aloof] =
        first ++ [{ group := "g", artifact := "b", version := "<1-x$\x7bself\x7d>" }] := by
  obtain ⟨texts, -, declarations⟩ := resolution_without_history circle
  have version := isUntangled_aloof (some "<$\x7bfull\x7d>") (by decide) _ rfl
  obtain ⟨resolutions, equal, each⟩ := declarations [entangled, aloof]
  refine ⟨isUntangled_aloof, (texts _ _ version).trans alone_version, ?_⟩
  cases each with
  | @cons _ first _ _ _ rest => cases rest with
    | cons second rest => cases rest with
      | nil =>
          refine ⟨first.toList, ?_⟩
          rw [equal, second isUntangled_aloof, expected_aloof]
          cases first with
          | none => rfl
          | some dependency => rfl

theorem expand_second : (expand circle (expandAll circle [] ["$\x7ba\x7d"]).2 "$\x7bb\x7d").1 =
    "$\x7ba\x7d" := by
  cbv

theorem expand_first : (expand circle [] "$\x7bb\x7d").1 = "$\x7bb\x7d" := by cbv

/-- What a text expands to can depend on the texts before it. -/
theorem not_without_history :
    ¬∀ (table : PropertyTable) (earlier : List String) (text : String),
      (expand table (expandAll table [] earlier).2 text).1 = (expand table [] text).1 := by
  intro without
  have same := without circle ["$\x7ba\x7d"] "$\x7bb\x7d"
  rw [expand_second, expand_first] at same
  exact absurd same (by decide)

end Descriptor
end ClassAtlas
