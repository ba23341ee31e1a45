import ClassAtlas.Path
import Mathlib

/-!
# Paths without repetition

`Path.distinct` keeps of the paths with one meaning the first.  Told by their components, the
paths that it keeps are all that there were (`components_distinct`) and none of them twice
(`nodup_distinct`).  What comes later in a list does not change what is kept of its front
(`distinct_append`), and of it those are kept that are not listed yet (`distinct_append_eq`).
-/

namespace ClassAtlas.Path

/-- The paths kept so far, and one more unless it is among them. -/
def keep (kept : List Path) (path : Path) : List Path :=
  if kept.any (same path) then kept else kept ++ [path]

/-- A path is left out when one with its components has been kept. -/
theorem any_same_iff {kept : List Path} {path : Path} :
    kept.any (same path) = true ↔ path.components ∈ kept.map components := by
  simp only [List.any_eq_true, same_eq_true, List.mem_map, eq_comm (a := path.components)]

theorem keep_of_mem {kept : List Path} {path : Path}
    (known : path.components ∈ kept.map components) : keep kept path = kept := by
  rw [keep, if_pos (any_same_iff.2 known)]

theorem keep_of_notMem {kept : List Path} {path : Path}
    (new : path.components ∉ kept.map components) : keep kept path = kept ++ [path] := by
  rw [keep, if_neg (mt any_same_iff.1 new)]

theorem distinct_eq (paths : List Path) : distinct paths = paths.foldl keep [] := rfl

theorem components_foldl_keep (kept paths : List Path) (components : List Component) :
    components ∈ (paths.foldl keep kept).map Path.components ↔
      components ∈ kept.map Path.components ∨ components ∈ paths.map Path.components := by
  induction paths generalizing kept with
  | nil => simp
  | cons path paths ih =>
      rw [List.foldl_cons, ih, List.map_cons, List.mem_cons, ← or_assoc]
      refine or_congr_left ?_
      by_cases known : path.components ∈ kept.map Path.components
      · rw [keep_of_mem known]
        exact ⟨.inl, fun either => either.elim id fun same => same ▸ known⟩
      · rw [keep_of_notMem known, List.map_append, List.mem_append, List.map_singleton,
          List.mem_singleton]

theorem nodup_foldl_keep {kept : List Path} (paths : List Path)
    (nodup : (kept.map components).Nodup) : ((paths.foldl keep kept).map components).Nodup := by
  induction paths generalizing kept with
  | nil => exact nodup
  | cons path paths ih =>
      rw [List.foldl_cons]
      by_cases known : path.components ∈ kept.map components
      · rw [keep_of_mem known]
        exact ih nodup
      · refine ih ?_
        rw [keep_of_notMem known, List.map_append, List.map_singleton]
        exact nodup.append (List.nodup_singleton _) (List.disjoint_singleton.2 known)

theorem foldl_keep_of_known {kept paths : List Path}
    (known : ∀ path ∈ paths, path.components ∈ kept.map components) :
    paths.foldl keep kept = kept := by
  induction paths with
  | nil => rfl
  | cons path paths ih =>
      rw [List.foldl_cons, keep_of_mem (known path List.mem_cons_self)]
      exact ih fun other member => known other (List.mem_cons_of_mem path member)

/-! ## What is kept -/

/-- Of the paths with one meaning one is kept. -/
theorem components_distinct {paths : List Path} {components : List Component} :
    components ∈ (distinct paths).map Path.components ↔ components ∈ paths.map Path.components := by
  rw [distinct_eq, components_foldl_keep, List.map_nil]
  exact or_iff_right List.not_mem_nil

/-- Of each path one with the same meaning is kept. -/
theorem exists_same_of_mem {paths : List Path} {path : Path} (member : path ∈ paths) :
    ∃ kept ∈ distinct paths, kept.same path = true := by
  obtain ⟨kept, among, same⟩ :=
    List.mem_map.1 (components_distinct.2 (List.mem_map_of_mem (f := components) member))
  exact ⟨kept, among, same_eq_true.2 same⟩

/-- No two of the paths that are kept have one meaning. -/
theorem nodup_distinct (paths : List Path) : ((distinct paths).map components).Nodup :=
  nodup_foldl_keep paths List.nodup_nil

/-- What is known already is left out. -/
theorem distinct_append_of_known {front back : List Path}
    (known : ∀ path ∈ back, path.components ∈ front.map components) :
    distinct (front ++ back) = distinct front := by
  rw [distinct_eq, distinct_eq, List.foldl_append]
  exact foldl_keep_of_known fun path member => components_distinct.2 (known path member)

/-- Paths of which no two have one meaning are all kept. -/
theorem distinct_of_nodup {paths : List Path} (nodup : (paths.map components).Nodup) :
    distinct paths = paths := by
  induction paths using List.reverseRecOn with
  | nil => rfl
  | append_singleton paths path ih =>
      rw [List.map_append, List.map_singleton] at nodup
      have new : path.components ∉ paths.map components :=
        List.disjoint_singleton.1 (List.disjoint_of_nodup_append nodup)
      rw [distinct_eq, List.foldl_append, List.foldl_cons, List.foldl_nil, ← distinct_eq,
        ih nodup.of_append_left, keep_of_notMem new]

@[simp] theorem distinct_distinct (paths : List Path) : distinct (distinct paths) = distinct paths :=
  distinct_of_nodup (nodup_distinct paths)

/-! ## First occurrences -/

theorem loop_same_eq (paths kept : List Path) :
    List.eraseDupsBy.loop same paths kept = paths.foldl keep kept.reverse := by
  induction paths generalizing kept with
  | nil => rfl
  | cons path paths ih =>
      rw [List.eraseDupsBy.loop, List.foldl_cons, keep, List.any_reverse]
      cases kept.any (same path) with
      | true => exact ih kept
      | false =>
          rw [if_neg Bool.false_ne_true, ← List.reverse_cons]
          exact ih (path :: kept)

/-- What is kept is the first of the paths with one meaning. -/
theorem distinct_eq_eraseDupsBy (paths : List Path) : distinct paths = paths.eraseDupsBy same :=
  (loop_same_eq paths []).symm

/-- The paths that none of those listed has the meaning of. -/
def unlisted (listed paths : List Path) : List Path :=
  paths.filter fun path => !listed.any (same path)

theorem mem_unlisted {listed paths : List Path} {path : Path} :
    path ∈ unlisted listed paths ↔
      path ∈ paths ∧ path.components ∉ listed.map components := by
  rw [unlisted, List.mem_filter, ← any_same_iff, Bool.not_eq_true, Bool.not_eq_true']

theorem components_unlisted {listed paths : List Path} {components : List Component} :
    components ∈ (unlisted listed paths).map Path.components ↔
      components ∈ paths.map Path.components ∧ components ∉ listed.map Path.components := by
  constructor
  · intro member
    obtain ⟨path, among, rfl⟩ := List.mem_map.1 member
    exact ⟨List.mem_map_of_mem (mem_unlisted.1 among).1, (mem_unlisted.1 among).2⟩
  · rintro ⟨member, new⟩
    obtain ⟨path, among, rfl⟩ := List.mem_map.1 member
    exact List.mem_map_of_mem (mem_unlisted.2 ⟨among, new⟩)

theorem unlisted_concat_of_mem {listed : List Path} {path : Path} (paths : List Path)
    (known : path.components ∈ listed.map components) :
    unlisted listed (paths ++ [path]) = unlisted listed paths := by
  have left : unlisted listed [path] = [] :=
    List.filter_cons_of_neg (by simpa using any_same_iff.2 known)
  rw [unlisted, List.filter_append, ← unlisted, ← unlisted, left, List.append_nil]

theorem unlisted_concat_of_notMem {listed : List Path} {path : Path} (paths : List Path)
    (new : path.components ∉ listed.map components) :
    unlisted listed (paths ++ [path]) = unlisted listed paths ++ [path] := by
  have kept : unlisted listed [path] = [path] := by
    apply List.filter_cons_of_pos
    rw [Bool.not_eq_true', Bool.eq_false_iff]
    exact mt any_same_iff.1 new
  rw [unlisted, List.filter_append, ← unlisted, ← unlisted, kept]

theorem distinct_concat (paths : List Path) (path : Path) :
    distinct (paths ++ [path]) = keep (distinct paths) path := by
  rw [distinct_eq, distinct_eq, List.foldl_append]
  rfl

/-- Of what follows those paths are kept that are not listed yet. -/
theorem distinct_append_eq (front back : List Path) :
    distinct (front ++ back) = distinct front ++ unlisted (distinct front) (distinct back) := by
  induction back using List.reverseRecOn with
  | nil => rw [List.append_nil]; exact (List.append_nil _).symm
  | append_singleton back path ih =>
      rw [← List.append_assoc, distinct_concat, distinct_concat, ih]
      by_cases inBack : path.components ∈ (distinct back).map components
      · rw [keep_of_mem inBack]
        apply keep_of_mem
        rw [List.map_append, List.mem_append, components_unlisted]
        by_cases inFront : path.components ∈ (distinct front).map components
        · exact .inl inFront
        · exact .inr ⟨inBack, inFront⟩
      · rw [keep_of_notMem inBack]
        by_cases inFront : path.components ∈ (distinct front).map components
        · rw [unlisted_concat_of_mem _ inFront]
          apply keep_of_mem
          rw [List.map_append]
          exact List.mem_append_left _ inFront
        · rw [unlisted_concat_of_notMem _ inFront, ← List.append_assoc]
          apply keep_of_notMem
          rw [List.map_append, List.mem_append, components_unlisted, not_or]
          exact ⟨inFront, fun both => inBack both.1⟩

end ClassAtlas.Path
