import ClassAtlas.NameResolution.Basic
import ClassAtlas.Proofs.ClassIndex.Views

/-!
# The order of the rules of name resolution

The answer for a name is given by the first rule that applies (`Answers.rank_le`), and
three of the rules ask the index.  When an index grows, every rule that applied still
applies, so the answer can only come from the same rule or from an earlier one; and as long
as the rule stays the same, no class that was an answer or a candidate is lost.
-/

namespace ClassAtlas

namespace ResolutionRule

/-- The place of a rule in the order of precedence. -/
def rank (rule : ResolutionRule) : Nat :=
  all.idxOf rule

/-- The rules whose answers depend on the index only in whether they are given. -/
def isSettled : ResolutionRule → Bool
  | .qualified | .samePackage | .explicitImport | .implicitImport => true
  | .wildcardImport | .ambiguous | .notFound => false

/-- The rules that answer with a class out of the index. -/
def isIndexed : ResolutionRule → Bool
  | .samePackage | .wildcardImport | .ambiguous => true
  | .qualified | .explicitImport | .implicitImport | .notFound => false

end ResolutionRule

/-- The larger index holds all classes of the smaller one. -/
def ClassIndex.Within (smaller larger : ClassIndex) : Prop :=
  ∀ name, smaller.contains name = true → larger.contains name = true

namespace NameResolution

variable {index smaller larger : ClassIndex} {imports : List String} {current : Option String}
  {name simple package : String} {rule : ResolutionRule}

/-! ## Candidates -/

/-- Some candidate has the highest score. -/
theorem exists_best (imports : List String) (simple : String) {candidates : List String}
    (nonempty : candidates ≠ []) :
    ∃ winner ∈ candidates, score imports simple winner = bestScore imports simple candidates := by
  have scored : candidates.map (score imports simple) ≠ [] := by simpa using nonempty
  obtain ⟨highest, isHighest⟩ := Option.isSome_iff_exists.1 (List.isSome_max?_of_ne_nil scored)
  obtain ⟨member, _⟩ := List.max?_eq_some_iff.1 isHighest
  obtain ⟨winner, candidate, rfl⟩ := List.mem_map.1 member
  refine ⟨winner, candidate, ?_⟩
  rw [bestScore, List.foldl_max, isHighest, Option.getD_some, Nat.zero_max]

/-- There is a guess exactly when there are candidates. -/
theorem best_eq_nil_iff {candidates : List String} :
    best imports simple candidates = [] ↔ candidates = [] := by
  refine ⟨fun none => ?_, fun none => by rw [none]; rfl⟩
  by_contra nonempty
  obtain ⟨winner, candidate, highest⟩ := exists_best imports simple nonempty
  have kept : winner ∈ best imports simple candidates :=
    List.mem_filter.2 ⟨candidate, by simpa using highest⟩
  rw [none] at kept
  exact nomatch kept

/-! ## The seven answers -/

/-- The answer of a rule that leaves no doubt about the class. -/
def certain (simple : String) (rule : ResolutionRule) (package : String) : Resolution where
  name := simple
  resolved := some (ClassName.qualified ⟨package, simple⟩)
  rule
  matching := [package]

/-- No rule before the last two has an answer for a name. -/
structure Undecided (index : ClassIndex) (imports : List String) (current : Option String)
    (simple : String) : Prop where
  plain : Text.cutLast '.' simple.toList = none
  notCurrent : inCurrentPackage? index current simple = none
  notImported : imported? (imports.filterMap Import.parse?) simple = none
  notOpened : opened? index (imports.filterMap Import.parse?) simple = none
  notImplicit : implicit? simple = none

/-- What the answer for a trimmed name can be, with what its rule has found and what the
rules before it have not found. -/
inductive Answers (index : ClassIndex) (imports : List String) (current : Option String)
    (simple : String) : Resolution → Prop where
  | qualified {package rest : List Char}
      (dotted : Text.cutLast '.' simple.toList = some (package, rest)) :
      Answers index imports current simple
        { name := simple, resolved := some simple, rule := .qualified
          matching := [String.ofList package] }
  | samePackage {package : String} (plain : Text.cutLast '.' simple.toList = none)
      (found : inCurrentPackage? index current simple = some package) :
      Answers index imports current simple (certain simple .samePackage package)
  | explicitImport {package : String} (plain : Text.cutLast '.' simple.toList = none)
      (notCurrent : inCurrentPackage? index current simple = none)
      (found : imported? (imports.filterMap Import.parse?) simple = some package) :
      Answers index imports current simple (certain simple .explicitImport package)
  | wildcardImport {package : String} (plain : Text.cutLast '.' simple.toList = none)
      (notCurrent : inCurrentPackage? index current simple = none)
      (notImported : imported? (imports.filterMap Import.parse?) simple = none)
      (found : opened? index (imports.filterMap Import.parse?) simple = some package) :
      Answers index imports current simple (certain simple .wildcardImport package)
  | implicitImport {package : String} (plain : Text.cutLast '.' simple.toList = none)
      (notCurrent : inCurrentPackage? index current simple = none)
      (notImported : imported? (imports.filterMap Import.parse?) simple = none)
      (notOpened : opened? index (imports.filterMap Import.parse?) simple = none)
      (found : implicit? simple = some package) :
      Answers index imports current simple (certain simple .implicitImport package)
  | ambiguous {winner : String} {winners : List String}
      (undecided : Undecided index imports current simple)
      (winning : best imports simple (index.packagesOf simple) = winner :: winners) :
      Answers index imports current simple
        { name := simple, resolved := some (ClassName.qualified ⟨winner, simple⟩)
          rule := .ambiguous, possible := index.packagesOf simple
          matching := winner :: winners, confidence := confidence imports winner }
  | notFound (undecided : Undecided index imports current simple)
      (unknown : index.packagesOf simple = []) :
      Answers index imports current simple
        { name := simple, resolved := none, rule := .notFound }

theorem answers_guess (undecided : Undecided index imports current simple) :
    Answers index imports current simple (guess index imports simple) := by
  rw [guess]
  cases winning : best imports simple (index.packagesOf simple) with
  | nil => exact .notFound undecided (best_eq_nil_iff.1 winning)
  | cons winner winners => exact .ambiguous undecided winning

/-- What a resolution can be. -/
theorem answers_resolve (index : ClassIndex) (imports : List String) (current : Option String)
    (name : String) :
    Answers index imports current (Text.trimmed name) (resolve index imports current name) := by
  simp only [resolve]
  generalize Text.trimmed name = simple
  cases plain : Text.cutLast '.' simple.toList with
  | some sides => exact .qualified plain
  | none =>
  rw [decide?]
  cases notCurrent : inCurrentPackage? index current simple with
  | some package => exact .samePackage plain notCurrent
  | none =>
  cases notImported : imported? (imports.filterMap Import.parse?) simple with
  | some package => exact .explicitImport plain notCurrent notImported
  | none =>
  cases notOpened : opened? index (imports.filterMap Import.parse?) simple with
  | some package => exact .wildcardImport plain notCurrent notImported notOpened
  | none =>
  cases notImplicit : implicit? simple with
  | some package => exact .implicitImport plain notCurrent notImported notOpened notImplicit
  | none => exact answers_guess ⟨plain, notCurrent, notImported, notOpened, notImplicit⟩

/-! ## Which rules apply -/

/-- What a rule asks of a trimmed name before it answers. -/
def Applies (index : ClassIndex) (imports : List String) (current : Option String)
    (simple : String) : ResolutionRule → Prop
  | .qualified => (Text.cutLast '.' simple.toList).isSome
  | .samePackage => (inCurrentPackage? index current simple).isSome
  | .explicitImport => (imported? (imports.filterMap Import.parse?) simple).isSome
  | .wildcardImport => (opened? index (imports.filterMap Import.parse?) simple).isSome
  | .implicitImport => (implicit? simple).isSome
  | .ambiguous => index.packagesOf simple ≠ []
  | .notFound => True

theorem Answers.applies {answer : Resolution}
    (answers : Answers index imports current simple answer) :
    Applies index imports current simple answer.rule := by
  cases answers with
  | qualified dotted => simp [Applies, dotted]
  | samePackage plain found => simp [certain, Applies, found]
  | explicitImport plain notCurrent found => simp [certain, Applies, found]
  | wildcardImport plain notCurrent notImported found => simp [certain, Applies, found]
  | implicitImport plain notCurrent notImported notOpened found => simp [certain, Applies, found]
  | ambiguous undecided winning =>
      intro none
      rw [best_eq_nil_iff.2 none] at winning
      exact nomatch winning
  | notFound undecided unknown => trivial

/-- While nothing is decided only the last two rules apply. -/
theorem Undecided.last_two {other : ResolutionRule}
    (undecided : Undecided index imports current simple)
    (applies : Applies index imports current simple other) :
    other = .ambiguous ∨ other = .notFound := by
  cases other with
  | qualified => exact absurd undecided.plain (Option.isSome_iff_ne_none.1 applies)
  | samePackage => exact absurd undecided.notCurrent (Option.isSome_iff_ne_none.1 applies)
  | explicitImport => exact absurd undecided.notImported (Option.isSome_iff_ne_none.1 applies)
  | wildcardImport => exact absurd undecided.notOpened (Option.isSome_iff_ne_none.1 applies)
  | implicitImport => exact absurd undecided.notImplicit (Option.isSome_iff_ne_none.1 applies)
  | ambiguous => exact .inl rfl
  | notFound => exact .inr rfl

/-- No rule that applies comes before the one that answers. -/
theorem Answers.rank_le {answer : Resolution} {other : ResolutionRule}
    (answers : Answers index imports current simple answer)
    (applies : Applies index imports current simple other) :
    answer.rule.rank ≤ other.rank := by
  cases answers with
  | qualified dotted => exact Nat.zero_le _
  | samePackage plain found =>
      change ResolutionRule.rank .samePackage ≤ _
      cases other with
      | qualified => exact absurd plain (Option.isSome_iff_ne_none.1 applies)
      | _ => decide
  | explicitImport plain notCurrent found =>
      change ResolutionRule.rank .explicitImport ≤ _
      cases other with
      | qualified => exact absurd plain (Option.isSome_iff_ne_none.1 applies)
      | samePackage => exact absurd notCurrent (Option.isSome_iff_ne_none.1 applies)
      | _ => decide
  | wildcardImport plain notCurrent notImported found =>
      change ResolutionRule.rank .wildcardImport ≤ _
      cases other with
      | qualified => exact absurd plain (Option.isSome_iff_ne_none.1 applies)
      | samePackage => exact absurd notCurrent (Option.isSome_iff_ne_none.1 applies)
      | explicitImport => exact absurd notImported (Option.isSome_iff_ne_none.1 applies)
      | _ => decide
  | implicitImport plain notCurrent notImported notOpened found =>
      change ResolutionRule.rank .implicitImport ≤ _
      cases other with
      | qualified => exact absurd plain (Option.isSome_iff_ne_none.1 applies)
      | samePackage => exact absurd notCurrent (Option.isSome_iff_ne_none.1 applies)
      | explicitImport => exact absurd notImported (Option.isSome_iff_ne_none.1 applies)
      | wildcardImport => exact absurd notOpened (Option.isSome_iff_ne_none.1 applies)
      | _ => decide
  | ambiguous undecided winning =>
      change ResolutionRule.rank .ambiguous ≤ _
      rcases undecided.last_two applies with rfl | rfl
      · exact le_rfl
      · decide
  | notFound undecided unknown =>
      rcases undecided.last_two applies with rfl | rfl
      · exact absurd unknown applies
      · exact le_rfl

/-! ## Answers and the index -/

theorem inCurrentPackage?_eq_some :
    inCurrentPackage? index current simple = some package ↔
      current = some package ∧ package ≠ "" ∧ index.contains ⟨package, simple⟩ = true := by
  simp [inCurrentPackage?, Option.filter_eq_some_iff]

/-- What the index has to do with an answer: a class that one of the three rules names is in
the index, and a name that is not found has no class there. -/
theorem Answers.held {answer : Resolution}
    (answers : Answers index imports current simple answer) :
    (answer.rule.isIndexed → ∃ package,
        answer.resolved = some (ClassName.qualified ⟨package, simple⟩) ∧
          index.contains ⟨package, simple⟩ = true) ∧
      (answer.rule = .notFound → ∀ package, index.contains ⟨package, simple⟩ = false) := by
  cases answers with
  | qualified | explicitImport | implicitImport =>
      exact ⟨fun indexed => (nomatch indexed), fun missing => nomatch missing⟩
  | samePackage plain found =>
      refine ⟨fun _ => ⟨_, rfl, ?_⟩, fun missing => (nomatch missing)⟩
      exact (inCurrentPackage?_eq_some.1 found).2.2
  | wildcardImport plain notCurrent notImported found =>
      refine ⟨fun _ => ⟨_, rfl, ?_⟩, fun missing => (nomatch missing)⟩
      simpa using List.find?_some found
  | ambiguous undecided winning =>
      refine ⟨fun _ => ⟨_, rfl, ?_⟩, fun missing => (nomatch missing)⟩
      have first : _ ∈ best imports simple (index.packagesOf simple) :=
        winning ▸ List.mem_cons_self
      exact ClassIndex.mem_packagesOf.1 (List.mem_filter.1 first).1
  | notFound undecided unknown =>
      refine ⟨fun indexed => (nomatch indexed), fun _ package => ?_⟩
      rw [Bool.eq_false_iff]
      intro held
      have listed := ClassIndex.mem_packagesOf.2 held
      rw [unknown] at listed
      exact nomatch listed

/-- A rule that applies goes on to apply when the index grows. -/
theorem Applies.mono (within : smaller.Within larger)
    (applies : Applies smaller imports current simple rule) :
    Applies larger imports current simple rule := by
  cases rule with
  | qualified | explicitImport | implicitImport | notFound => exact applies
  | samePackage =>
      obtain ⟨package, found⟩ := Option.isSome_iff_exists.1 applies
      obtain ⟨isCurrent, named, held⟩ := inCurrentPackage?_eq_some.1 found
      exact Option.isSome_of_eq_some
        (inCurrentPackage?_eq_some.2 ⟨isCurrent, named, within _ held⟩)
  | wildcardImport =>
      obtain ⟨package, opened, held⟩ := List.find?_isSome.1 applies
      exact List.find?_isSome.2 ⟨package, opened, within _ held⟩
  | ambiguous =>
      obtain ⟨package, listed⟩ := List.exists_mem_of_ne_nil _ applies
      exact List.ne_nil_of_mem
        (ClassIndex.mem_packagesOf.2 (within _ (ClassIndex.mem_packagesOf.1 listed)))

/-- Two indexes that both answer by the same settled rule give the same answer. -/
theorem Answers.eq_of_settled {left right : ClassIndex} {first second : Resolution}
    (isFirst : Answers left imports current simple first)
    (isSecond : Answers right imports current simple second) (same : first.rule = second.rule)
    (settled : first.rule.isSettled) : first = second := by
  cases isFirst with
  | qualified dotted =>
      cases isSecond with
      | qualified dotted' =>
          rw [dotted] at dotted'
          cases dotted'
          rfl
      | _ => exact nomatch same
  | samePackage plain found =>
      cases isSecond with
      | samePackage plain' found' =>
          rw [(inCurrentPackage?_eq_some.1 found).1] at found'
          rw [Option.some.inj (inCurrentPackage?_eq_some.1 found').1]
      | _ => exact nomatch same
  | explicitImport plain notCurrent found =>
      cases isSecond with
      | explicitImport plain' notCurrent' found' =>
          rw [Option.some.inj (found.symm.trans found')]
      | _ => exact nomatch same
  | implicitImport plain notCurrent notImported notOpened found =>
      cases isSecond with
      | implicitImport plain' notCurrent' notImported' notOpened' found' =>
          rw [Option.some.inj (found.symm.trans found')]
      | _ => exact nomatch same
  | wildcardImport | ambiguous | notFound => exact nomatch settled

/-- The candidates of an ambiguous answer are all classes of that name in the index. -/
theorem Answers.possible_eq {answer : Resolution}
    (answers : Answers index imports current simple answer)
    (ambiguous : answer.rule = .ambiguous) : answer.possible = index.packagesOf simple := by
  cases answers with
  | ambiguous undecided winning => rfl
  | _ => exact nomatch ambiguous

theorem packagesOf_subset (within : smaller.Within larger) (simple : String) :
    smaller.packagesOf simple ⊆ larger.packagesOf simple := fun _ listed =>
  ClassIndex.mem_packagesOf.2 (within _ (ClassIndex.mem_packagesOf.1 listed))

/-- What becomes of an answer when the index grows. -/
theorem Answers.grow {before after : Resolution}
    (isBefore : Answers smaller imports current simple before)
    (isAfter : Answers larger imports current simple after) (within : smaller.Within larger) :
    after.rule.rank ≤ before.rule.rank ∧
      (before.rule = .ambiguous → after.rule = .ambiguous →
        before.possible ⊆ after.possible) ∧
      (before.rule = after.rule → before.rule.isSettled → before = after) := by
  refine ⟨isAfter.rank_le (isBefore.applies.mono within), fun ambiguous still => ?_,
    isBefore.eq_of_settled isAfter⟩
  rw [isBefore.possible_eq ambiguous, isAfter.possible_eq still]
  exact packagesOf_subset within simple

/-- Resolution looks at nothing in an index but the packages that it lists for the name. -/
theorem resolve_congr {left right : ClassIndex} (imports : List String)
    (current : Option String)
    (same : left.packagesOf (Text.trimmed name) = right.packagesOf (Text.trimmed name)) :
    resolve left imports current name = resolve right imports current name := by
  have holds : ∀ package, left.contains ⟨package, Text.trimmed name⟩ =
      right.contains ⟨package, Text.trimmed name⟩ := fun package => by
    rw [Bool.eq_iff_iff, ← ClassIndex.mem_packagesOf, ← ClassIndex.mem_packagesOf, same]
  simp only [resolve, decide?, inCurrentPackage?, opened?, guess, holds, same]

/-! ## Growing indexes -/

/-- An answer names a class of the index where its rule looks there, and nothing is missed
when no rule answers.  When the index grows the answer comes from the same rule or from an
earlier one, no candidate is lost, and what does not need the index stays as it was; nor
does the answer depend on anything in the index but the packages of the name. -/
theorem resolve_monotone (imports : List String) (current : Option String) (name : String) :
    (∀ index, let answer := resolve index imports current name
      (answer.rule.isIndexed → ∃ package,
        answer.resolved = some (ClassName.qualified ⟨package, Text.trimmed name⟩) ∧
          index.contains ⟨package, Text.trimmed name⟩ = true) ∧
      (answer.rule = .notFound →
        ∀ package, index.contains ⟨package, Text.trimmed name⟩ = false)) ∧
    (∀ smaller larger : ClassIndex, smaller.Within larger →
      let before := resolve smaller imports current name
      let after := resolve larger imports current name
      after.rule.rank ≤ before.rule.rank ∧
      (before.rule = .ambiguous → after.rule = .ambiguous →
        before.possible ⊆ after.possible) ∧
      (before.rule = after.rule → before.rule.isSettled → before = after)) ∧
    ∀ left right : ClassIndex,
      left.packagesOf (Text.trimmed name) = right.packagesOf (Text.trimmed name) →
        resolve left imports current name = resolve right imports current name := by
  refine ⟨fun index => ?_, fun smaller larger within => ?_,
    fun left right same => resolve_congr imports current same⟩
  · exact (answers_resolve index imports current name).held
  · exact (answers_resolve smaller imports current name).grow
      (answers_resolve larger imports current name) within

/-- A class that is added to the index turns a guess into the answer of a wildcard import. -/
theorem resolve_monotone_import :
    let smaller := ({} : ClassIndex).insert ⟨"org.other", "Foo"⟩
    let larger := smaller.insert ⟨"com.example", "Foo"⟩
    let before := resolve smaller ["import com.example.*;"] none " Foo"
    let after := resolve larger ["import com.example.*;"] none " Foo"
    smaller.Within larger ∧ before.rule = .ambiguous ∧ after.rule = .wildcardImport ∧
      after.rule.rank ≤ before.rule.rank ∧
      ∃ package, after.resolved = some (ClassName.qualified ⟨package, Text.trimmed " Foo"⟩) ∧
        larger.contains ⟨package, Text.trimmed " Foo"⟩ = true := by
  intro smaller larger before after
  have within : smaller.Within larger := fun name held =>
    (ClassIndex.contains_insert _ _ _).2 (.inr held)
  have isWildcard : after.rule = .wildcardImport := by decide +kernel
  have monotone := resolve_monotone ["import com.example.*;"] none " Foo"
  exact ⟨within, by decide +kernel, isWildcard, (monotone.2.1 smaller larger within).1,
    (monotone.1 larger).1 (by decide +kernel)⟩

end NameResolution
end ClassAtlas
