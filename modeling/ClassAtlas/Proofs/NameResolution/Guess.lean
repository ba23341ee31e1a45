import ClassAtlas.Proofs.NameResolution.Precedence
import ClassAtlas.Proofs.Text.Cut

/-!
# The guess for an ambiguous name

All packages that have a class of an ambiguous name are candidates, and the guess is the smallest
of those with the most points (`IsGuess`).  There is one such package at most, and a guess among
more candidates that is no new one is the guess among the old ones (`IsGuess.of_insert`), so a
package that is added to the index becomes the guess or leaves it as it was.  The order of the
imports is of no consequence once none of them answers (`guess_perm`).
-/

namespace ClassAtlas

namespace ClassIndex

/-- The packages of a name are listed in increasing order. -/
theorem pairwise_packagesOf (index : ClassIndex) (simple : String) :
    (index.packagesOf simple).Pairwise (· < ·) := by
  rw [packagesOf]
  cases index.packages[simple]? with
  | none => exact .nil
  | some packages =>
      apply Std.TreeSet.ordered_toList.imp
      intro left right less
      exact compare_lt_iff_lt.1 less

end ClassIndex

namespace NameResolution

variable {index : ClassIndex} {imports others : List String} {current : Option String}
  {name simple package other : String}

/-! ## Points -/

/-- Ten points for a package of the standard library, five for one whose last segment belongs to
the role that the class name ends in, and three for each import that begins with the first
characters of the package, at most ten of them. -/
def points (imports : List String) (simple package : String) : Nat :=
  (if "java.".toList <+: package.toList ∨ "javax.".toList <+: package.toList then 10 else 0) +
    (if ∃ role ∈ [("Factory", "factory"), ("Service", "service"), ("DAO", "dao"), ("Dao", "dao")],
        role.1.toList <:+ simple.toList ∧
          (package = role.2 ∨ '.' :: role.2.toList <:+ package.toList) then 5 else 0) +
    3 * (imports.filter fun statement =>
      package.toList.take 10 <+: Import.target statement).length

/-- A name without dots is the last segment of itself and of what ends in it after a dot. -/
theorem lastSegment_eq_iff {segment : String} (whole : '.' ∉ segment.toList) :
    lastSegment package = segment.toList ↔
      package = segment ∨ '.' :: segment.toList <:+ package.toList := by
  rw [lastSegment]
  constructor
  · intro last
    cases found : Text.cutLast '.' package.toList with
    | none =>
        rw [found] at last
        exact .inl (String.toList_injective last)
    | some sides =>
        obtain ⟨before, after⟩ := sides
        rw [found] at last
        have same : after = segment.toList := last
        exact .inr ⟨before, by rw [Text.cutLast_eq_some found, same]⟩
  · rintro (rfl | ⟨before, read⟩)
    · rw [Text.cutLast_eq_none whole]
      rfl
    · rw [← read, Text.cutLast_append whole]
      rfl

/-- The class name ends in a role, and the last segment of the package belongs to it. -/
theorem hasRole_eq_true_iff :
    hasRole simple package = true ↔
      ∃ role ∈ roles, role.1.toList <:+ simple.toList ∧
        (package = role.2 ∨ '.' :: role.2.toList <:+ package.toList) := by
  have undotted : ∀ role ∈ roles, '.' ∉ role.2.toList := by decide
  rw [hasRole, List.any_eq_true]
  constructor
  · rintro ⟨role, member, found⟩
    rw [Bool.and_eq_true, List.isSuffixOf_iff_suffix, beq_iff_eq] at found
    exact ⟨role, member, found.1, (lastSegment_eq_iff (undotted role member)).1 found.2⟩
  · rintro ⟨role, member, ending, last⟩
    refine ⟨role, member, ?_⟩
    rw [Bool.and_eq_true, List.isSuffixOf_iff_suffix, beq_iff_eq]
    exact ⟨ending, (lastSegment_eq_iff (undotted role member)).2 last⟩

theorem isNear_eq (package statement : String) :
    isNear package statement = decide (package.toList.take 10 <+: Import.target statement) := by
  rw [Bool.eq_iff_iff, isNear, List.isPrefixOf_iff_prefix, decide_eq_true_iff]
  rfl

/-- The likelihood of a candidate is the number of its points. -/
theorem score_eq_points (imports : List String) (simple package : String) :
    score imports simple package = points imports simple package := by
  have standard : isStandard package = true ↔
      "java.".toList <+: package.toList ∨ "javax.".toList <+: package.toList := by
    rw [isStandard, Bool.or_eq_true, List.isPrefixOf_iff_prefix, List.isPrefixOf_iff_prefix]
  have near : imports.countP (isNear package) = (imports.filter fun statement =>
      package.toList.take 10 <+: Import.target statement).length := by
    rw [List.countP_eq_length_filter, funext (isNear_eq package)]
  simp only [score, points, standard, hasRole_eq_true_iff, near]
  rfl

/-- The order of the imports does not count. -/
theorem points_perm (perm : imports.Perm others) (simple package : String) :
    points imports simple package = points others simple package := by
  rw [points, points, (perm.filter _).length_eq]

/-! ## The best candidates -/

/-- The best candidates are those with the most points. -/
theorem mem_best {candidates : List String} :
    package ∈ best imports simple candidates ↔ package ∈ candidates ∧
      ∀ other ∈ candidates, points imports simple other ≤ points imports simple package := by
  have highest : ∀ other ∈ candidates,
      score imports simple other ≤ bestScore imports simple candidates := by
    intro other member
    rw [bestScore, List.foldl_max, Nat.zero_max]
    exact List.le_max?_getD_of_mem (List.mem_map_of_mem member)
  simp only [← score_eq_points]
  rw [best, List.mem_filter, beq_iff_eq]
  apply and_congr_right
  intro member
  constructor
  · intro reached other listed
    rw [reached]
    exact highest other listed
  · intro most
    obtain ⟨winner, listed, reached⟩ := exists_best imports simple (List.ne_nil_of_mem member)
    exact le_antisymm (highest package member) (reached ▸ most winner listed)

/-- Of the packages that have a class of this name the package has the most points, and it is the
smallest of those with as many. -/
structure IsGuess (index : ClassIndex) (imports : List String) (simple package : String) :
    Prop where
  held : index.contains ⟨package, simple⟩ = true
  most : ∀ other, index.contains ⟨other, simple⟩ = true →
    points imports simple other ≤ points imports simple package
  least : ∀ other, index.contains ⟨other, simple⟩ = true →
    points imports simple other = points imports simple package → package ≤ other

/-- There is one guess at most. -/
theorem IsGuess.unique (isGuess : IsGuess index imports simple package)
    (isOther : IsGuess index imports simple other) : package = other := by
  have even := le_antisymm (isOther.most package isGuess.held) (isGuess.most other isOther.held)
  exact le_antisymm (isGuess.least other isOther.held even.symm)
    (isOther.least package isGuess.held even)

/-- A guess that was a candidate before a package was added was the guess before. -/
theorem IsGuess.of_insert {added : String}
    (isGuess : IsGuess (index.insert ⟨added, simple⟩) imports simple package)
    (old : package ≠ added) : IsGuess index imports simple package := by
  have grown : ∀ other, index.contains ⟨other, simple⟩ = true →
      (index.insert ⟨added, simple⟩).contains ⟨other, simple⟩ = true := by
    intro other held
    exact (ClassIndex.contains_insert _ _ _).2 (.inr held)
  constructor
  · rcases (ClassIndex.contains_insert _ _ _).1 isGuess.held with new | held
    · cases new
      exact absurd rfl old
    · exact held
  · intro other held
    exact isGuess.most other (grown other held)
  · intro other held
    exact isGuess.least other (grown other held)

/-- The first of the best candidates is the smallest. -/
theorem isLeast_best {winner : String} {winners : List String}
    (winning : best imports simple (index.packagesOf simple) = winner :: winners) :
    IsLeast {package | package ∈ winner :: winners} winner := by
  have sorted : (winner :: winners).Pairwise (· < ·) := by
    rw [← winning]
    exact (index.pairwise_packagesOf simple).filter _
  refine ⟨List.mem_cons_self, ?_⟩
  intro package member
  rcases List.mem_cons.1 member with rfl | later
  · exact le_rfl
  · exact le_of_lt (List.rel_of_pairwise_cons sorted later)

/-- The first of the best candidates is the guess. -/
theorem isGuess_of_best {winner : String} {winners : List String}
    (winning : best imports simple (index.packagesOf simple) = winner :: winners) :
    IsGuess index imports simple winner := by
  obtain ⟨first, smallest⟩ := isLeast_best winning
  rw [Set.mem_ofPred_eq, ← winning, mem_best] at first
  obtain ⟨listed, most⟩ := first
  constructor
  · exact ClassIndex.mem_packagesOf.1 listed
  · intro other held
    exact most other (ClassIndex.mem_packagesOf.2 held)
  · intro other held even
    apply smallest
    rw [Set.mem_ofPred_eq, ← winning, mem_best]
    refine ⟨ClassIndex.mem_packagesOf.2 held, ?_⟩
    intro third listed
    rw [even]
    exact most third listed

/-! ## Ambiguous answers -/

/-- While nothing is decided the answer is the guess. -/
theorem Undecided.resolve_eq (undecided : Undecided index imports current (Text.trimmed name)) :
    resolve index imports current name = guess index imports (Text.trimmed name) := by
  simp only [resolve, undecided.plain, decide?, undecided.notCurrent, undecided.notImported,
    undecided.notOpened, undecided.notImplicit, Option.map_none]

/-- Nothing is decided by imports in another order. -/
theorem Undecided.perm (undecided : Undecided index imports current simple)
    (perm : imports.Perm others) : Undecided index others current simple := by
  have known := perm.filterMap Import.parse?
  refine ⟨undecided.plain, undecided.notCurrent, ?_, ?_, undecided.notImplicit⟩
  · have none := undecided.notImported
    rw [imported?, List.findSome?_eq_none_iff] at none ⊢
    intro statement member
    exact none statement (known.mem_iff.2 member)
  · have none := undecided.notOpened
    rw [opened?, List.find?_eq_none] at none ⊢
    intro opened member
    exact none opened ((known.filterMap Import.opened?).mem_iff.2 member)

/-- The guess does not depend on the order of the imports. -/
theorem guess_perm (index : ClassIndex) (perm : imports.Perm others) (simple : String) :
    guess index imports simple = guess index others simple := by
  have scores : score imports simple = score others simple := by
    funext package
    rw [score_eq_points, score_eq_points, points_perm perm]
  have trust : confidence imports = confidence others := by
    funext package
    rw [confidence, confidence, perm.any_eq]
  simp only [guess, best, bestScore, scores, trust]

/-- What an ambiguous answer says: nothing is decided, all packages of the name are possible, and
the first of the best among them is the guess. -/
theorem Answers.ambiguous_cases {answer : Resolution}
    (answers : Answers index imports current simple answer) (ambiguous : answer.rule = .ambiguous) :
    Undecided index imports current simple ∧ answer.possible = index.packagesOf simple ∧
      ∃ winner winners, best imports simple (index.packagesOf simple) = winner :: winners ∧
        answer.matching = winner :: winners ∧
        answer.resolved = some (winner ++ "." ++ simple) := by
  cases answers with
  | ambiguous undecided winning => exact ⟨undecided, rfl, _, _, winning, rfl, rfl⟩
  | _ => cases ambiguous

/-- With one more package for the name the guess stays, or it is the new package. -/
theorem Answers.guess_of_insert {added : String} {before after : Resolution}
    (isBefore : Answers index imports current simple before)
    (isAfter : Answers (index.insert ⟨added, simple⟩) imports current simple after)
    (ambiguous : before.rule = .ambiguous) (still : after.rule = .ambiguous) :
    after.resolved = before.resolved ∨ after.resolved = some (added ++ "." ++ simple) := by
  obtain ⟨-, -, old, _, oldBest, -, isOld⟩ := isBefore.ambiguous_cases ambiguous
  obtain ⟨-, -, new, _, newBest, -, isNew⟩ := isAfter.ambiguous_cases still
  rw [isOld, isNew]
  by_cases isAdded : new = added
  · exact .inr (by rw [isAdded])
  · have same := (isGuess_of_best newBest).of_insert isAdded
    exact .inl (by rw [same.unique (isGuess_of_best oldBest)])

/-- An ambiguous answer lists all packages that have a class of the name, in increasing order,
and among them those with the most points, of which the smallest is the guess.  The order of the
imports does not count.  With one more package for the name in the index, an answer that is still
ambiguous keeps the guess or makes it the new package. -/
theorem resolve_ambiguous (ambiguous : (resolve index imports current name).rule = .ambiguous) :
    let simple := Text.trimmed name
    let answer := resolve index imports current name
    (answer.possible.Pairwise (· < ·) ∧
      ∀ package, package ∈ answer.possible ↔ index.contains ⟨package, simple⟩ = true) ∧
    (answer.matching.Sublist answer.possible ∧
      ∀ package, package ∈ answer.matching ↔ package ∈ answer.possible ∧
        ∀ other ∈ answer.possible, points imports simple other ≤ points imports simple package) ∧
    (∃ winner, IsLeast {package | package ∈ answer.matching} winner ∧
      answer.resolved = some (winner ++ "." ++ simple)) ∧
    (∀ others, imports.Perm others → resolve index others current name = answer) ∧
    ∀ package, let grown := resolve (index.insert ⟨package, simple⟩) imports current name
      grown.rule = .ambiguous →
        grown.resolved = answer.resolved ∨ grown.resolved = some (package ++ "." ++ simple) := by
  intro simple answer
  have answers : Answers index imports current simple answer :=
    answers_resolve index imports current name
  obtain ⟨undecided, possible, winner, winners, winning, matching, resolved⟩ :=
    answers.ambiguous_cases ambiguous
  rw [possible, matching]
  refine ⟨⟨index.pairwise_packagesOf simple, fun _ => ClassIndex.mem_packagesOf⟩, ⟨?_, ?_⟩,
    ⟨winner, isLeast_best winning, resolved⟩, ?_, ?_⟩
  · rw [← winning]
    exact List.filter_sublist
  · intro package
    rw [← winning]
    exact mem_best
  · intro others perm
    rw [(undecided.perm perm).resolve_eq, ← guess_perm index perm]
    exact undecided.resolve_eq.symm
  · intro package grown still
    exact answers.guess_of_insert (answers_resolve _ imports current name) ambiguous still

/-- Two imports near a package outweigh the role of another one, in whatever order they stand,
and a package of the standard library that is added outweighs both. -/
theorem resolve_ambiguous_outweighed :
    let index := (({} : ClassIndex).insert ⟨"com.acme.factory", "BeanFactory"⟩).insert
      ⟨"org.other", "BeanFactory"⟩
    let imports := ["import org.other.util.Helper;", "import static org.other.Thing.make;"]
    let answer := resolve index imports none " BeanFactory"
    let grown := resolve (index.insert ⟨"javax.swing", "BeanFactory"⟩) imports none " BeanFactory"
    answer.rule = .ambiguous ∧ grown.rule = .ambiguous ∧
      answer.possible = ["com.acme.factory", "org.other"] ∧ answer.matching = ["org.other"] ∧
      grown.resolved = some "javax.swing.BeanFactory" ∧
      answer.possible.Pairwise (· < ·) ∧
      (∃ winner, IsLeast {package | package ∈ answer.matching} winner ∧
        answer.resolved = some (winner ++ "." ++ "BeanFactory")) ∧
      resolve index imports.reverse none " BeanFactory" = answer ∧
      (grown.resolved = answer.resolved ∨
        grown.resolved = some ("javax.swing" ++ "." ++ "BeanFactory")) := by
  intro index imports answer grown
  have plain : Text.trimmed " BeanFactory" = "BeanFactory" := by decide +kernel
  have ambiguous : answer.rule = .ambiguous := by decide +kernel
  have still : grown.rule = .ambiguous := by decide +kernel
  have guessed := resolve_ambiguous ambiguous
  simp only [plain] at guessed
  obtain ⟨⟨sorted, -⟩, -, winner, unordered, added⟩ := guessed
  exact ⟨ambiguous, still, by decide +kernel, by decide +kernel, by decide +kernel, sorted, winner,
    unordered _ (List.reverse_perm imports).symm, added "javax.swing" still⟩

end NameResolution
end ClassAtlas
