import ClassAtlas.Indexing.Pass
import ClassAtlas.Proofs.ClassIndex.Views

/-!
# Courses of a pass

A pass may take its moves in any order that `step?` allows.  What a move can do is said once
(`Proceeds`).  Each move leaves the forecast of the pass as it was: the index with all facts
added that its scans have yet to add, and the summary with all scans counted that have not
been collected.  When nothing is left to do the forecast is the outcome, so the outcome does
not depend on the course.
-/

namespace ClassAtlas.Indexing

variable {files : FileTree} {limit : Nat}

namespace Pass

/-! ## Courses -/

/-- The moves by which a pass has got from one state to another. -/
inductive Course (files : FileTree) (limit : Nat) (start : Pass) : List Move → Pass → Prop where
  | nil : Course files limit start [] start
  | snoc {moves : List Move} {pass next : Pass} {move : Move}
      (course : Course files limit start moves pass)
      (made : pass.step? files limit move = some next) :
      Course files limit start (moves ++ [move]) next

/-- No scan waits and none runs. -/
def IsOver (pass : Pass) : Prop :=
  pass.waiting = [] ∧ pass.sources = [] ∧ pass.running = []

/-- What a move makes of a pass, the order of the running scans apart. -/
inductive Proceeds (files : FileTree) (limit : Nat) (pass : Pass) : Pass → Prop where
  | starts {scan : Scan} {waiting : List Scan} (first : pass.waiting = scan :: waiting)
      (room : pass.running.length < max limit 1) :
      Proceeds files limit pass
        { pass with waiting, running := pass.running ++ [Running.ofScan files scan] }
  | startsSource {scan : Scan} {sources : List Scan} (noneWaits : pass.waiting = [])
      (first : pass.sources = scan :: sources) (idle : pass.running = []) :
      Proceeds files limit pass
        { pass with sources, running := pass.running ++ [Running.ofScan files scan] }
  | writes {kind : ScanKind} {found : Option Nat} {finding : Finding} {left : List Finding}
      {others running : List Running}
      (before : pass.running.Perm (⟨kind, found, finding :: left⟩ :: others))
      (after : running.Perm (⟨kind, found, left⟩ :: others)) :
      Proceeds files limit pass { pass with index := pass.index.add finding, running }
  | collects {kind : ScanKind} {found : Option Nat} {running : List Running}
      (before : pass.running.Perm (⟨kind, found, []⟩ :: running)) :
      Proceeds files limit pass { pass with summary := pass.summary.count kind found, running }

theorem perm_of_getElem? {γ : Type} {list : List γ} {position : Nat} {member : γ}
    (found : list[position]? = some member) :
    list.Perm (member :: list.eraseIdx position) ∧
      ∀ other, (list.set position other).Perm (other :: list.eraseIdx position) := by
  obtain ⟨bound, rfl⟩ := List.getElem?_eq_some_iff.1 found
  exact ⟨(List.getElem_cons_eraseIdx_perm bound).symm, List.set_perm_cons_eraseIdx bound⟩

theorem proceeds_of_step? {pass next : Pass} {move : Move}
    (made : pass.step? files limit move = some next) : Proceeds files limit pass next := by
  cases move with
  | start =>
      simp only [step?, Option.map_eq_some_iff, Prod.exists] at made
      obtain ⟨scan, rest, found, rfl⟩ := made
      rw [nextScan?] at found
      split at found
      · rename_i waiting _ first
        split at found
        · rename_i room
          cases found
          exact .starts first room
        · cases found
      · rename_i noneWaits first
        split at found
        · rename_i idle
          cases found
          exact .startsSource noneWaits first (List.isEmpty_iff.1 idle)
        · cases found
      · cases found
  | write position =>
      simp only [step?] at made
      split at made
      · rename_i found
        obtain ⟨before, after⟩ := perm_of_getElem? found
        cases made
        exact .writes before (after _)
      · cases made
  | collect position =>
      simp only [step?] at made
      split at made
      · rename_i found
        cases made
        exact .collects (perm_of_getElem? found).1
      · cases made

/-- What the start of a course satisfies and each of its moves keeps, its end satisfies. -/
theorem Course.keeps {start pass : Pass} {moves : List Move} {motive : Pass → Prop}
    (course : Course files limit start moves pass) (initially : motive start)
    (step : ∀ pass next, motive pass → Proceeds files limit pass next → motive next) :
    motive pass := by
  induction course with
  | nil => exact initially
  | snoc course made ih => exact step _ _ ih (proceeds_of_step? made)

/-! ## Progress -/

/-- There are never more scans running than the limit allows. -/
theorem Proceeds.running_le {pass next : Pass} (proceeds : Proceeds files limit pass next)
    (few : pass.running.length ≤ max limit 1) : next.running.length ≤ max limit 1 := by
  cases proceeds with
  | starts first room => simpa using room
  | startsSource noneWaits first idle => simp [idle]
  | writes before after =>
      rw [after.length_eq]
      rw [before.length_eq] at few
      exact few
  | collects before =>
      rw [before.length_eq] at few
      exact Nat.le_of_succ_le few

/-- A course has as many moves as it has taken from the weight of the pass. -/
theorem Course.length_add_weight {start pass : Pass} {moves : List Move}
    (course : Course files limit start moves pass) :
    moves.length + pass.weight files = start.weight files := by
  induction course with
  | nil => simp
  | snoc course made ih =>
      have less := weight_of_step? made
      rw [List.length_append, List.length_singleton]
      omega

theorem Course.cons {start middle pass : Pass} {move : Move} {moves : List Move}
    (made : start.step? files limit move = some middle)
    (course : Course files limit middle moves pass) :
    Course files limit start (move :: moves) pass := by
  induction course with
  | nil => exact .snoc .nil made
  | snoc course last ih => exact .snoc ih last

/-- A pass that is not over can go on, by an eager move for one. -/
theorem exists_eagerMove (files : FileTree) (limit : Nat) {pass : Pass}
    (unfinished : ¬pass.IsOver) :
    ∃ next, pass.step? files limit (eagerMove limit pass) = some next := by
  rw [eagerMove]
  split
  · rename_i startable
    obtain ⟨⟨scan, rest⟩, found⟩ := Option.isSome_iff_exists.1 startable
    exact ⟨_, by simp only [step?, found]; rfl⟩
  · rename_i blocked
    cases running : pass.running with
    | cons scan others =>
        obtain ⟨kind, found, left⟩ := scan
        cases left with
        | nil => exact ⟨_, by simp [step?, running]; rfl⟩
        | cons finding left => exact ⟨_, by simp [step?, running]; rfl⟩
    | nil =>
        refine absurd ?_ blocked
        cases waiting : pass.waiting with
        | cons scan rest => simp [nextScan?, running, waiting]
        | nil =>
            cases sources : pass.sources with
            | cons scan rest => simp [nextScan?, running, waiting, sources]
            | nil => exact absurd ⟨waiting, sources, running⟩ unfinished

/-- The pass that is run follows a course to its end. -/
theorem course_run (files : FileTree) (limit : Nat) (start : Pass) :
    (∃ moves, Course files limit start moves (run files limit start)) ∧
      (run files limit start).IsOver := by
  induction start using run.induct files limit with
  | case1 pass next made ih =>
      obtain ⟨⟨moves, course⟩, done⟩ := ih
      rw [run, made]
      exact ⟨⟨_, .cons made course⟩, done⟩
  | case2 pass stuck =>
      rw [run, stuck]
      refine ⟨⟨[], .nil⟩, ?_⟩
      by_contra unfinished
      obtain ⟨next, made⟩ := exists_eagerMove files limit unfinished
      rw [stuck] at made
      exact nomatch made

/-! ## The forecast -/

/-- What a scan counts for in the summary: how many classes it finds, unless it fails. -/
def outcome (files : FileTree) (scan : Scan) : ScanKind × Option Nat :=
  (scan.kind, (scan.classes? files).map List.length)

/-- The facts that the scans have yet to add. -/
def pending (files : FileTree) (pass : Pass) : List Finding :=
  pass.running.flatMap Running.left ++ (pass.waiting ++ pass.sources).flatMap (Scan.findings files)

/-- What the scans that have not been collected will count for. -/
def uncounted (files : FileTree) (pass : Pass) : List (ScanKind × Option Nat) :=
  (pass.running.map fun scan => (scan.kind, scan.found)) ++
    (pass.waiting ++ pass.sources).map (outcome files)

/-- The summary with all these outcomes counted. -/
def countAll (summary : Summary) (outcomes : List (ScanKind × Option Nat)) : Summary :=
  outcomes.foldl (fun summary (kind, found) => summary.count kind found) summary

/-- The index as it will be when all facts have been added. -/
def forecastIndex (files : FileTree) (pass : Pass) : ClassIndex :=
  pass.index.addAll (pass.pending files)

/-- The summary as it will be when all scans have been counted. -/
def forecastSummary (files : FileTree) (pass : Pass) : Summary :=
  countAll pass.summary (pass.uncounted files)

/-- Outcomes may be counted in any order. -/
theorem countAll_perm (summary : Summary) {outcomes others : List (ScanKind × Option Nat)}
    (perm : outcomes.Perm others) : countAll summary outcomes = countAll summary others := by
  refine perm.foldl_eq' ?_ summary
  rintro ⟨kind, found⟩ _ ⟨otherKind, otherFound⟩ _ summary
  cases kind <;> cases found <;> cases otherKind <;> cases otherFound <;>
    simp [Summary.count, Nat.add_right_comm]

theorem Proceeds.pending_perm {pass next : Pass} (proceeds : Proceeds files limit pass next) :
    (next.index = pass.index ∧ (next.pending files).Perm (pass.pending files)) ∨
      ∃ finding, next.index = pass.index.add finding ∧
        (pass.pending files).Perm (finding :: next.pending files) := by
  cases proceeds with
  | starts first room =>
      refine .inl ⟨rfl, .of_eq ?_⟩
      simp [pending, first, Running.ofScan]
  | startsSource noneWaits first idle =>
      refine .inl ⟨rfl, .of_eq ?_⟩
      simp [pending, noneWaits, first, idle, Running.ofScan]
  | writes before after =>
      refine .inr ⟨_, rfl, ?_⟩
      have was := before.flatMap_right Running.left
      have willBe := after.flatMap_right Running.left
      simp only [List.flatMap_cons, List.cons_append] at was willBe
      exact (was.append_right _).trans ((willBe.symm.append_right _).cons _)
  | collects before =>
      refine .inl ⟨rfl, ?_⟩
      have was := before.flatMap_right Running.left
      simp only [List.flatMap_cons, List.nil_append] at was
      exact was.symm.append_right _

/-- A move leaves the index that is to be as it was. -/
theorem Proceeds.forecastIndex {pass next : Pass} (proceeds : Proceeds files limit pass next) :
    (next.forecastIndex files).Alike (pass.forecastIndex files) := by
  rw [Pass.forecastIndex, Pass.forecastIndex]
  rcases proceeds.pending_perm with ⟨same, perm⟩ | ⟨finding, added, perm⟩
  · rw [same]
    exact pass.index.alike_addAll perm
  · rw [added]
    exact pass.index.alike_addAll perm.symm

/-- A move leaves the summary that is to be as it was. -/
theorem Proceeds.forecastSummary {pass next : Pass}
    (proceeds : Proceeds files limit pass next) :
    next.forecastSummary files = pass.forecastSummary files := by
  rw [Pass.forecastSummary, Pass.forecastSummary]
  cases proceeds with
  | starts first room => simp [uncounted, first, Running.ofScan, outcome]
  | startsSource noneWaits first idle =>
      simp [uncounted, noneWaits, first, idle, Running.ofScan, outcome]
  | writes before after =>
      have was := before.map fun scan => (scan.kind, scan.found)
      have willBe := after.map fun scan => (scan.kind, scan.found)
      exact countAll_perm _ ((willBe.trans was.symm).append_right _)
  | collects before =>
      have counted := (before.map fun scan => (scan.kind, scan.found)).append_right
        ((pass.waiting ++ pass.sources).map (outcome files))
      exact (countAll_perm _ counted).symm

/-- The outcome of a pass is what was forecast when it began. -/
theorem Course.outcome {start pass : Pass} {moves : List Move}
    (course : Course files limit start moves pass) (done : pass.IsOver) :
    pass.index.Alike (start.forecastIndex files) ∧
      pass.summary = start.forecastSummary files := by
  obtain ⟨noneWaits, noSource, noneRuns⟩ := done
  have forecast := course.keeps
    (motive := fun pass => (pass.forecastIndex files).Alike (start.forecastIndex files) ∧
      pass.forecastSummary files = start.forecastSummary files)
    ⟨.refl _, rfl⟩ fun pass next ⟨index, summary⟩ proceeds =>
      ⟨proceeds.forecastIndex.trans index, proceeds.forecastSummary.trans summary⟩
  simpa [forecastIndex, forecastSummary, pending, uncounted, noneWaits, noSource, noneRuns,
    ClassIndex.addAll, countAll] using forecast

end Pass

end ClassAtlas.Indexing
