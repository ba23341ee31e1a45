import ClassAtlas.Indexing.Scan
import Mathlib

/-!
# What a class index holds

Two views describe a class index: `contains` tells for a class whether it is held, and
`ownerOf?` to which dependency a package belongs.  Adding a fact changes one of them at one
place, so facts may be added in any order: the views of an index with a list of facts added
depend on what the list has for members (`contains_addAll`, `ownerOf?_addAll`).
-/

namespace ClassAtlas.ClassIndex

variable {index : ClassIndex}

/-! ## Classes -/

/-- The packages that are listed for a name are those that have a class of this name. -/
theorem mem_packagesOf {simple package : String} :
    package ∈ index.packagesOf simple ↔ index.contains ⟨package, simple⟩ = true := by
  rw [packagesOf, contains]
  cases found : index.packages[simple]? with
  | none => simp
  | some packages =>
      simp only [Option.map_some, Option.getD_some, Option.any_some, Std.TreeSet.mem_toList,
        Std.TreeSet.contains_iff_mem]

@[simp] theorem contains_empty (name : ClassName) :
    ({} : ClassIndex).contains name = false := by
  simp [contains]

@[simp] theorem ownerOf?_empty (package : String) :
    ({} : ClassIndex).ownerOf? package = none := by
  simp [ownerOf?]

/-- Inserting a class adds that class alone. -/
theorem contains_insert (index : ClassIndex) (name other : ClassName) :
    (index.insert name).contains other = true ↔
      other = name ∨ index.contains other = true := by
  obtain ⟨package, simple⟩ := name
  obtain ⟨otherPackage, otherSimple⟩ := other
  simp only [contains, insert, Std.TreeMap.getElem?_insert, compare_eq_iff_eq,
    ClassName.mk.injEq]
  by_cases same : simple = otherSimple
  · subst same
    rw [if_pos rfl]
    simp only [Option.any_some, Std.TreeSet.contains_insert, Bool.or_eq_true, beq_iff_eq,
      compare_eq_iff_eq, and_true, eq_comm (a := package)]
    cases found : index.packages[simple]? with
    | none => simp
    | some packages => rfl
  · rw [if_neg same]
    have apart : otherSimple ≠ simple := Ne.symm same
    simp [apart]

@[simp] theorem ownerOf?_insert (index : ClassIndex) (name : ClassName) (package : String) :
    (index.insert name).ownerOf? package = index.ownerOf? package := rfl

/-! ## Owners -/

@[simp] theorem contains_claim (index : ClassIndex) (package owner : String)
    (name : ClassName) : (index.claim package owner).contains name = index.contains name := rfl

theorem smaller_eq_min (left right : String) : smaller left right = min left right := by
  rw [smaller, min_def]
  by_cases less : right < left
  · rw [if_pos less, if_neg (not_le.2 less)]
  · rw [if_neg less, if_pos (not_lt.1 less)]

/-- A claim leaves the package with the smaller of the old owner and the new. -/
theorem ownerOf?_claim (index : ClassIndex) (package owner other : String) :
    (index.claim package owner).ownerOf? other =
      if other = package then some (((index.ownerOf? package).map (min · owner)).getD owner)
      else index.ownerOf? other := by
  have least : (fun old => smaller old owner) = (min · owner) :=
    funext fun old => smaller_eq_min old owner
  simp only [ownerOf?, claim, Std.TreeMap.getElem?_insert, compare_eq_iff_eq, least,
    eq_comm (a := package)]

/-! ## Many facts -/

/-- The index with all these facts added, one after another. -/
def addAll (index : ClassIndex) (facts : List Finding) : ClassIndex :=
  facts.foldl add index

theorem contains_addAll (index : ClassIndex) (facts : List Finding) (name : ClassName) :
    (index.addAll facts).contains name = true ↔
      index.contains name = true ∨ .holds name ∈ facts := by
  induction facts generalizing index with
  | nil => simp [addAll]
  | cons fact facts ih =>
      have later := ih (index.add fact)
      rw [addAll, List.foldl_cons]
      rw [addAll] at later
      rw [later, List.mem_cons]
      cases fact with
      | holds added =>
          rw [add, contains_insert]
          simp only [Finding.holds.injEq]
          tauto
      | owned package owner => simp [add]

/-- Those to whom a package may belong in an index with facts that are still to be added:
its owner there, and everybody for whom one of the facts claims it. -/
def claimants (index : ClassIndex) (facts : List Finding) (package : String) : Set String :=
  {owner | index.ownerOf? package = some owner ∨ .owned package owner ∈ facts}

/-- A claim leaves the smallest claimant as it was. -/
theorem isLeast_claimants_claim (index : ClassIndex) (facts : List Finding)
    (package owner other least : String) :
    IsLeast ((index.claim package owner).claimants facts other) least ↔
      IsLeast (index.claimants (.owned package owner :: facts) other) least := by
  by_cases same : other = package
  · subst same
    cases old : index.ownerOf? other with
    | none =>
        have alike : (index.claim other owner).claimants facts other =
            index.claimants (.owned other owner :: facts) other := by
          ext claimant
          simp [claimants, ownerOf?_claim, old, eq_comm]
        rw [alike]
    | some first =>
        have inClaimed : ∀ claimant, claimant ∈ (index.claim other owner).claimants facts other ↔
            claimant = min first owner ∨ .owned other claimant ∈ facts := fun claimant => by
          simp [claimants, ownerOf?_claim, old, eq_comm]
        have inAll : ∀ claimant,
            claimant ∈ index.claimants (.owned other owner :: facts) other ↔
              claimant = first ∨ claimant = owner ∨ .owned other claimant ∈ facts :=
          fun claimant => by simp [claimants, old, eq_comm]
        simp only [IsLeast, lowerBounds, Set.mem_ofPred_eq, inClaimed, inAll]
        constructor
        · rintro ⟨member, below⟩
          have first_le := (below (.inl rfl)).trans (min_le_left first owner)
          have owner_le := (below (.inl rfl)).trans (min_le_right first owner)
          refine ⟨?_, ?_⟩
          · rcases member with rfl | claimed
            · rcases min_choice first owner with isFirst | isOwner
              · exact .inl isFirst
              · exact .inr (.inl isOwner)
            · exact .inr (.inr claimed)
          · rintro claimant (rfl | rfl | claimed)
            · exact first_le
            · exact owner_le
            · exact below (.inr claimed)
        · rintro ⟨member, below⟩
          have least_le := le_min (below (.inl rfl)) (below (.inr (.inl rfl)))
          refine ⟨?_, ?_⟩
          · rcases member with rfl | rfl | claimed
            · exact .inl (le_antisymm least_le (min_le_left _ _))
            · exact .inl (le_antisymm least_le (min_le_right _ _))
            · exact .inr claimed
          · rintro claimant (rfl | claimed)
            · exact least_le
            · exact below (.inr (.inr claimed))
  · have alike : (index.claim package owner).claimants facts other =
        index.claimants (.owned package owner :: facts) other := by
      ext claimant
      simp [claimants, ownerOf?_claim, same]
    rw [alike]

/-- A package belongs to the smallest of those who claim it. -/
theorem ownerOf?_addAll (index : ClassIndex) (facts : List Finding) (package owner : String) :
    (index.addAll facts).ownerOf? package = some owner ↔
      IsLeast (index.claimants facts package) owner := by
  induction facts generalizing index with
  | nil =>
      have single : ∀ claimant, claimant ∈ index.claimants [] package ↔
          index.ownerOf? package = some claimant := by simp [claimants]
      simp only [addAll, List.foldl_nil, IsLeast, lowerBounds, Set.mem_ofPred_eq, single]
      refine ⟨fun owned => ⟨owned, fun claimant also => ?_⟩, And.left⟩
      rw [Option.some.inj (owned.symm.trans also)]
  | cons fact facts ih =>
      have later := ih (index.add fact)
      rw [addAll] at later ⊢
      rw [List.foldl_cons, later]
      cases fact with
      | holds added => simp [add, claimants]
      | owned claimed owner' => exact index.isLeast_claimants_claim facts claimed owner' _ _

/-- A package has no owner exactly when nobody claims it. -/
theorem ownerOf?_addAll_eq_none (index : ClassIndex) (facts : List Finding) (package : String) :
    (index.addAll facts).ownerOf? package = none ↔
      index.ownerOf? package = none ∧ ∀ owner, .owned package owner ∉ facts := by
  induction facts generalizing index with
  | nil => simp [addAll]
  | cons fact facts ih =>
      have later := ih (index.add fact)
      rw [addAll] at later ⊢
      rw [List.foldl_cons, later]
      cases fact with
      | holds added => simp [add]
      | owned claimed owner =>
          by_cases same : package = claimed
          · subst same
            rw [add, ownerOf?_claim, if_pos rfl]
            constructor
            · exact fun ⟨owned, _⟩ => nomatch owned
            · exact fun ⟨_, unclaimed⟩ => absurd List.mem_cons_self (unclaimed owner)
          · simp [add, ownerOf?_claim, same]

/-- Two indexes that their views do not tell apart. -/
structure Alike (left right : ClassIndex) : Prop where
  contains : ∀ name, left.contains name = right.contains name
  ownerOf? : ∀ package, left.ownerOf? package = right.ownerOf? package

theorem Alike.refl (index : ClassIndex) : Alike index index :=
  ⟨fun _ => rfl, fun _ => rfl⟩

theorem Alike.trans {first second third : ClassIndex} (left : Alike first second)
    (right : Alike second third) : Alike first third :=
  ⟨fun name => (left.contains name).trans (right.contains name),
    fun package => (left.ownerOf? package).trans (right.ownerOf? package)⟩

/-- Facts may be added in any order. -/
theorem alike_addAll (index : ClassIndex) {facts others : List Finding}
    (perm : facts.Perm others) : Alike (index.addAll facts) (index.addAll others) where
  contains name := by
    rw [Bool.eq_iff_iff, contains_addAll, contains_addAll, perm.mem_iff]
  ownerOf? package := by
    have claimed : index.claimants facts package = index.claimants others package := by
      ext owner
      simp only [claimants, Set.mem_ofPred_eq, perm.mem_iff]
    refine Option.ext fun owner => ?_
    rw [ownerOf?_addAll, ownerOf?_addAll, claimed]

end ClassAtlas.ClassIndex
