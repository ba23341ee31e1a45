import ClassAtlas.Proofs.Indexing.Course
import ClassAtlas.Proofs.Indexing.Findings

/-!
# The outcome of a pass

What a pass has found when it is over is told from what there was to scan, whatever course it
took.  The index holds the classes that some scan offers; a package belongs to the smallest
dependency for which an archive with a class of it is named; each scan counts once, as read
or as failed (`outcome_ofPaths`).
-/

namespace ClassAtlas.Indexing

variable {files : FileTree} {limit : Nat}

/-! ## Counting -/

/-- How many of the outcomes are those of scans of a kind that could read their part. -/
def readOf (kind : ScanKind) (outcomes : List (ScanKind × Option Nat)) : Nat :=
  outcomes.countP fun (other, found) => other = kind && found.isSome

theorem readOf_append (kind : ScanKind) (front back : List (ScanKind × Option Nat)) :
    readOf kind (front ++ back) = readOf kind front + readOf kind back :=
  List.countP_append

namespace Pass

/-- Counting adds up: each number of the summary grows by that of its outcomes. -/
theorem countAll_eq (summary : Summary) (outcomes : List (ScanKind × Option Nat)) :
    countAll summary outcomes =
      { archives := summary.archives + readOf .archive outcomes
        directories := summary.directories + readOf .directory outcomes
        sourceArchives := summary.sourceArchives + readOf .sources outcomes
        failed := summary.failed + outcomes.countP (·.2.isNone)
        entries := summary.entries + (outcomes.map (·.2.getD 0)).sum
        elapsedMilliseconds := summary.elapsedMilliseconds } := by
  induction outcomes generalizing summary with
  | nil => simp [countAll, readOf]
  | cons outcome outcomes ih =>
      have later := ih (summary.count outcome.1 outcome.2)
      rw [countAll] at later ⊢
      rw [List.foldl_cons, later]
      obtain ⟨kind, found⟩ := outcome
      cases found with
      | none => simp [Summary.count, readOf, Nat.add_assoc, Nat.add_comm 1]
      | some entries =>
          cases kind <;> simp [Summary.count, readOf, Nat.add_assoc, Nat.add_comm 1]

/-! ## What a pass has found -/

/-- The classes that the index holds at the end: those that it held before, and those offered
by a part of the classpath. -/
theorem Course.contains_iff {start pass : Pass} {moves : List Move}
    (course : Course files limit start moves pass) (done : pass.IsOver)
    (idle : start.running = []) (name : ClassName) :
    pass.index.contains name = true ↔
      start.index.contains name = true ∨
        ∃ scan ∈ start.waiting ++ start.sources, scan.Offers files name := by
  rw [(course.outcome done).1.contains, forecastIndex, ClassIndex.contains_addAll, pending, idle]
  simp only [List.flatMap_nil, List.nil_append, List.mem_flatMap, Scan.holds_mem_findings]

/-- The state of a pass over these parts of a classpath, with nothing in the index. -/
def ofPaths (archives directories sources : List Path) : Pass where
  index := {}
  waiting := archives.map (⟨.archive, ·⟩) ++ directories.map (⟨.directory, ·⟩)
  sources := sources.map (⟨.sources, ·⟩)

variable {archives directories sources : List Path}

theorem owned_mem_pending {package owner : String} :
    .owned package owner ∈ (ofPaths archives directories sources).pending files ↔
      ∃ path ∈ archives, ArchiveName.dependencyName? path = some owner ∧
        ∃ simple, Scan.Offers files ⟨.archive, path⟩ ⟨package, simple⟩ := by
  simp only [pending, ofPaths, List.flatMap_nil, List.nil_append, List.mem_flatMap,
    Scan.owned_mem_findings, List.mem_append, List.mem_map]
  constructor
  · rintro ⟨scan, (⟨path, member, rfl⟩ | ⟨path, _, rfl⟩) | ⟨path, _, rfl⟩, named, offered⟩
    · exact ⟨path, member, named, offered⟩
    · cases named
    · cases named
  · rintro ⟨path, member, named, offered⟩
    exact ⟨_, .inl (.inl ⟨path, member, rfl⟩), named, offered⟩

/-- What the scans of these paths count for. -/
def outcomesOf (files : FileTree) (kind : ScanKind) (paths : List Path) :
    List (ScanKind × Option Nat) :=
  (paths.map (⟨kind, ·⟩)).map (outcome files)

theorem readOf_outcomesOf (kind other : ScanKind) (paths : List Path) :
    readOf kind (outcomesOf files other paths) =
      if other = kind then paths.countP fun path => Scan.isReadable files ⟨kind, path⟩ else 0 := by
  rw [readOf, outcomesOf, List.map_map, List.countP_map]
  split
  · rename_i same
    subst same
    refine List.countP_congr fun path _ => ?_
    simp [outcome, Scan.isSome_classes?]
  · rename_i apart
    exact List.countP_eq_zero.2 fun path _ => by simp [outcome, apart]

theorem countP_isNone_outcomesOf (kind : ScanKind) (paths : List Path) :
    (outcomesOf files kind paths).countP (·.2.isNone) =
      paths.countP fun path => !Scan.isReadable files ⟨kind, path⟩ := by
  rw [outcomesOf, List.map_map, List.countP_map]
  refine List.countP_congr fun path _ => ?_
  simp [outcome, ← Scan.isSome_classes?]

theorem sum_outcomesOf (kind : ScanKind) (paths : List Path) :
    ((outcomesOf files kind paths).map (·.2.getD 0)).sum =
      (paths.map fun path => Scan.mapped files ⟨kind, path⟩).sum := by
  rw [outcomesOf, List.map_map, List.map_map]
  refine congrArg List.sum (List.map_congr_left fun path _ => ?_)
  exact Scan.length_classes? ⟨kind, path⟩

/-! ## The exact outcome -/

/-- The dependencies to which a package may belong: those that a readable archive with a class
of the package is named for. -/
def contributors (files : FileTree) (archives : List Path) (package : String) : Set String :=
  {owner | ∃ path ∈ archives, ArchiveName.dependencyName? path = some owner ∧
    ∃ simple, Scan.Offers files ⟨.archive, path⟩ ⟨package, simple⟩}

/-- The index and the summary are what the parts of the classpath call for. -/
structure IsExact (files : FileTree) (archives directories sources : List Path)
    (index : ClassIndex) (summary : Summary) : Prop where
  packages : ∀ simple package, package ∈ index.packagesOf simple ↔
    (∃ path ∈ archives, Scan.Offers files ⟨.archive, path⟩ ⟨package, simple⟩) ∨
      (∃ path ∈ directories, Scan.Offers files ⟨.directory, path⟩ ⟨package, simple⟩) ∨
        ∃ path ∈ sources, Scan.Offers files ⟨.sources, path⟩ ⟨package, simple⟩
  owner : ∀ package owner, index.ownerOf? package = some owner ↔
    IsLeast (contributors files archives package) owner
  noOwner : ∀ package, index.ownerOf? package = none ↔
    ¬∃ path ∈ archives, ∃ simple, Scan.Offers files ⟨.archive, path⟩ ⟨package, simple⟩
  readArchives : summary.archives =
    archives.countP fun path => Scan.isReadable files ⟨.archive, path⟩
  readDirectories : summary.directories =
    directories.countP fun path => Scan.isReadable files ⟨.directory, path⟩
  readSources : summary.sourceArchives =
    sources.countP fun path => Scan.isReadable files ⟨.sources, path⟩
  total : summary.archives + summary.directories + summary.sourceArchives + summary.failed =
    archives.length + directories.length + sources.length
  entries : summary.entries =
    (archives.map fun path => Scan.mapped files ⟨.archive, path⟩).sum +
      (directories.map fun path => Scan.mapped files ⟨.directory, path⟩).sum +
        (sources.map fun path => Scan.mapped files ⟨.sources, path⟩).sum

/-- A course that is over has an exact outcome. -/
theorem isExact_of_course {moves : List Move} {pass : Pass}
    (course : Course files limit (ofPaths archives directories sources) moves pass)
    (done : pass.IsOver) :
    IsExact files archives directories sources pass.index pass.summary := by
  obtain ⟨alike, summed⟩ := course.outcome done
  have outcomes : (ofPaths archives directories sources).uncounted files =
      outcomesOf files .archive archives ++ outcomesOf files .directory directories ++
        outcomesOf files .sources sources := by
    simp [uncounted, ofPaths, outcomesOf]
  have counted : pass.summary = countAll {} (outcomesOf files .archive archives ++
      outcomesOf files .directory directories ++ outcomesOf files .sources sources) :=
    outcomes ▸ summed
  rw [countAll_eq] at counted
  simp only [readOf_append, readOf_outcomesOf, List.countP_append, countP_isNone_outcomesOf,
    List.map_append, List.sum_append, sum_outcomesOf, reduceCtorEq, if_true, if_false,
    Nat.add_zero, Nat.zero_add] at counted
  refine { packages := fun simple package => ?packages, owner := fun package owner => ?owner,
           noOwner := fun package => ?noOwner, readArchives := ?readArchives,
           readDirectories := ?readDirectories, readSources := ?readSources, total := ?total,
           entries := ?entries }
  case packages =>
    rw [ClassIndex.mem_packagesOf, course.contains_iff done rfl]
    simp [ofPaths, or_and_right, exists_or]
  case owner =>
    rw [alike.ownerOf?, forecastIndex, ClassIndex.ownerOf?_addAll]
    have same : ClassIndex.claimants (ofPaths archives directories sources).index
        ((ofPaths archives directories sources).pending files) package =
          contributors files archives package := by
      ext claimant
      simp only [ClassIndex.claimants, contributors, Set.mem_ofPred_eq, owned_mem_pending]
      simp [ofPaths]
    rw [same]
  case noOwner =>
    rw [alike.ownerOf?, forecastIndex, ClassIndex.ownerOf?_addAll_eq_none]
    simp only [owned_mem_pending]
    constructor
    · rintro ⟨_, unclaimed⟩ ⟨path, member, simple, offered⟩
      obtain ⟨entries, readable, _⟩ := id offered
      obtain ⟨owner, named⟩ := Scan.exists_owner readable
      exact unclaimed owner ⟨path, member, named, simple, offered⟩
    · refine fun unoffered => ⟨rfl, ?_⟩
      rintro owner ⟨path, member, _, simple, offered⟩
      exact unoffered ⟨path, member, simple, offered⟩
  case readArchives => rw [counted]
  case readDirectories => rw [counted]
  case readSources => rw [counted]
  case total =>
    have split : ∀ (kind : ScanKind) (paths : List Path),
        (paths.countP fun path => Scan.isReadable files ⟨kind, path⟩) +
          (paths.countP fun path => !Scan.isReadable files ⟨kind, path⟩) = paths.length :=
      fun kind paths => by
        have whole := List.length_eq_countP_add_countP (l := paths)
          fun path => Scan.isReadable files ⟨kind, path⟩
        simpa using whole.symm
    have ofArchives := split .archive archives
    have ofDirectories := split .directory directories
    have ofSources := split .sources sources
    rw [counted]
    dsimp only
    omega
  case entries => rw [counted]

/-- Indexing is exact, whatever course it takes.  At no time do more scans run than the limit
allows; a course that is not over can go on, and it has an end; and there the index and the
summary are what the parts of the classpath call for. -/
theorem outcome_ofPaths {moves : List Move} {pass : Pass}
    (course : Course files limit (ofPaths archives directories sources) moves pass) :
    pass.running.length ≤ max 1 limit ∧
      (pass.IsOver ∨ ∃ move next, pass.step? files limit move = some next) ∧
      moves.length ≤ (ofPaths archives directories sources).weight files ∧
      (pass.IsOver → IsExact files archives directories sources pass.index pass.summary) := by
  refine ⟨?_, ?_, ?_, isExact_of_course course⟩
  · rw [Nat.max_comm]
    exact course.keeps (motive := fun pass => pass.running.length ≤ max limit 1)
      (Nat.zero_le _) fun _ _ few proceeds => proceeds.running_le few
  · by_cases done : pass.IsOver
    · exact .inl done
    · obtain ⟨next, made⟩ := exists_eagerMove files limit done
      exact .inr ⟨_, next, made⟩
  · exact course.length_add_weight ▸ Nat.le_add_right _ _

/-- Two archives with classes of one package, the one named for the smaller dependency last. -/
def twoArchives : FileTree :=
  .ofList [] [
    (⟨"/lib/right.jar"⟩, .file { archive := some ["com/example/Late.class"] }),
    (⟨"/lib/left.jar"⟩, .file { archive := some ["com/example/Early.class"] })]

theorem outcome_twoArchives :
    ∃ moves pass,
      Course twoArchives 2 (ofPaths [⟨"/lib/right.jar"⟩, ⟨"/lib/left.jar"⟩] [] [⟨"/absent.jar"⟩])
        moves pass ∧
      pass.IsOver ∧ "com.example" ∈ pass.index.packagesOf "Late" ∧
      pass.index.ownerOf? "com.example" = some "left" ∧
      pass.summary.archives = 2 ∧ pass.summary.failed = 1 := by
  obtain ⟨⟨moves, course⟩, done⟩ := course_run twoArchives 2
    (ofPaths [⟨"/lib/right.jar"⟩, ⟨"/lib/left.jar"⟩] [] [⟨"/absent.jar"⟩])
  obtain ⟨_, _, _, atEnd⟩ := outcome_ofPaths course
  have isExact := atEnd done
  have late : Scan.Offers twoArchives ⟨.archive, ⟨"/lib/right.jar"⟩⟩ ⟨"com.example", "Late"⟩ :=
    ⟨["com/example/Late.class".toList], by decide +kernel, _, List.mem_cons_self,
      by decide +kernel⟩
  have early : Scan.Offers twoArchives ⟨.archive, ⟨"/lib/left.jar"⟩⟩ ⟨"com.example", "Early"⟩ :=
    ⟨["com/example/Early.class".toList], by decide +kernel, _, List.mem_cons_self,
      by decide +kernel⟩
  have bothRead : Summary.archives _ = 2 := isExact.readArchives.trans (by decide +kernel)
  have noDirectory : Summary.directories _ = 0 := isExact.readDirectories
  have noSources : Summary.sourceArchives _ = 0 := isExact.readSources.trans (by decide +kernel)
  have total : _ = 3 := isExact.total
  refine ⟨moves, _, course, done, ?_, ?_, bothRead, by omega⟩
  · exact (isExact.packages _ _).2 (.inl ⟨_, List.mem_cons_self, late⟩)
  · refine (isExact.owner _ _).2 ⟨?_, ?_⟩
    · exact ⟨_, .tail _ (.head _), by decide +kernel, _, early⟩
    · rintro owner ⟨path, member, named, _⟩
      rcases List.mem_cons.1 member with rfl | last
      · have isRight : some "right" = some owner := named ▸ by decide +kernel
        exact Option.some.inj isRight ▸ by decide +kernel
      · rw [List.mem_singleton.1 last] at named
        have isLeft : some "left" = some owner := named ▸ by decide +kernel
        exact (Option.some.inj isLeft).le

end Pass
end ClassAtlas.Indexing
