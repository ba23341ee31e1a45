import ClassAtlas.Path
import Mathlib

/-!
# The segments of a path

The components of a path are where it starts and its segments, the idle ones left out
(`components_eq`).  So two paths are the same exactly when they start alike and have the same
segments, and a path continued by a name ends in that name.
-/

namespace ClassAtlas.Path

/-- The segments that name something, in the text of a path or a part of it. -/
def named (text : List Char) : List (List Char) :=
  (text.splitOn '/').filter (!isIdle ·)

/-- The segments of a path that name something. -/
def segments (path : Path) : List (List Char) :=
  named path.text.toList

/-- Where a path starts: at the root, expressly at the current directory, or nowhere. -/
def origin (path : Path) : List Component :=
  match (lead path.text.toList).1 with
  | ['/'] => [.root]
  | ['.'] => [.current]
  | _ => []

theorem named_append_separator (front back : List Char) :
    named (front ++ '/' :: back) = named front ++ named back := by
  rw [named, List.splitOn_append_cons_self, List.filter_append]
  rfl

@[simp] theorem named_cons_separator (back : List Char) : named ('/' :: back) = named back :=
  named_append_separator [] back

/-- A text without a separator is one segment. -/
theorem named_of_whole {text : List Char} (whole : '/' ∉ text) (active : isIdle text = false) :
    named text = [text] := by
  rw [named, List.splitOn_eq_singleton whole]
  simp [active]

/-- What stands before the body of a text names nothing. -/
theorem named_lead (text : List Char) : named (lead text).2 = named text := by
  fun_cases lead text with
  | case1 body => exact (named_cons_separator body).symm
  | case2 => rfl
  | case3 body => exact (named_append_separator ['.'] body).symm
  | case4 => rfl

theorem components_eq (path : Path) :
    path.components = path.origin ++ path.segments.map Component.ofSegment := by
  rw [components, componentsOf, origin, segments, ← named_lead path.text.toList]
  rfl

/-- A component that is a segment. -/
def Component.isSegment : Component → Bool
  | .root | .current => false
  | .parent | .name _ => true

/-- A path starts at the root when its text begins with a separator. -/
theorem origin_eq_root_iff {path : Path} : path.origin = [.root] ↔ path.isAbsolute = true := by
  rw [origin, isAbsolute]
  generalize path.text.toList = text
  fun_cases lead text with
  | case1 body => simp
  | case2 => simp
  | case3 body => simp
  | case4 _ relative =>
      have below : ¬text.head? = some '/' := fun first => by
        obtain ⟨rest, shape⟩ := List.head?_eq_some_iff.1 first
        exact relative rest shape
      simpa using below

/-! ## Continued paths -/

/-- What follows the start of a path does not change it. -/
theorem lead_append {text more : List Char} (nonempty : text ≠ [])
    (separated : text = ['.'] → more.head? = some '/') :
    (lead (text ++ more)).1 = (lead text).1 := by
  fun_cases lead text with
  | case1 body => rfl
  | case2 =>
      obtain ⟨rest, rfl⟩ := List.head?_eq_some_iff.1 (separated rfl)
      rfl
  | case3 body => rfl
  | case4 _ relative other inner =>
      obtain ⟨first, rest, rfl⟩ := List.exists_cons_of_ne_nil nonempty
      rw [List.cons_append, lead]
      · rintro body ⟨⟩
        exact relative rest rfl
      · intro whole
        obtain ⟨rfl, none⟩ := List.cons.inj whole
        rw [(List.append_eq_nil_iff.1 none).1] at other
        exact other rfl
      · intro body whole
        obtain ⟨rfl, separator⟩ := List.cons.inj whole
        cases rest with
        | nil => exact other rfl
        | cons second rest =>
            rw [List.cons_append] at separator
            exact inner rest (by rw [(List.cons.inj separator).1])

section Continued

variable {path : Path} {next : String}

/-- A path continued by a relative one has the segments of both. -/
theorem segments_join_of_relative (relative : ¬next.toList.head? = some '/') :
    (path.join next).segments = path.segments ++ named next.toList := by
  rw [segments, segments, join, String.toList_ofList, joinText,
    if_neg (by simpa using relative)]
  split
  · rename_i ended
    rcases Bool.or_eq_true_iff.1 ended with empty | separated
    · rw [List.isEmpty_iff.1 empty]
      rfl
    · obtain ⟨front, split⟩ := List.getLast?_eq_some_iff.1 (eq_of_beq separated)
      rw [split, List.append_assoc, List.singleton_append, named_append_separator,
        named_append_separator]
      simp [named, isIdle]
  · rw [named_append_separator]

/-- A path that starts nowhere is relative. -/
theorem relative_of_origin (nowhere : (Path.mk next).origin = []) :
    ¬next.toList.head? = some '/' := by
  intro first
  have absolute : (Path.mk next).isAbsolute = true := by
    rw [isAbsolute, first]
    rfl
  rw [← origin_eq_root_iff, nowhere] at absolute
  cases absolute

/-- A path starts where it did before it was continued. -/
theorem origin_join (nowhere : (Path.mk next).origin = []) :
    (path.join next).origin = path.origin := by
  rw [join, joinText, if_neg (by simpa using relative_of_origin nowhere)]
  by_cases empty : path.text.toList = []
  · rw [if_pos (by rw [empty]; rfl), empty, List.nil_append, String.ofList_toList, nowhere,
      origin, empty]
    rfl
  · have starts {more : List Char} (separated : path.text.toList = ['.'] →
        more.head? = some '/') :
        (Path.mk (String.ofList (path.text.toList ++ more))).origin = path.origin := by
      rw [origin, origin, String.toList_ofList, lead_append empty separated]
    split
    · rename_i ended
      apply starts
      intro current
      rw [current] at ended
      cases ended
    · exact starts fun _ => rfl

/-- A path continued by one that starts nowhere goes through the components of both. -/
theorem components_join (nowhere : (Path.mk next).origin = []) :
    (path.join next).components = path.components ++ (Path.mk next).components := by
  rw [components_eq, components_eq path, components_eq ⟨next⟩, origin_join nowhere, nowhere,
    segments_join_of_relative (relative_of_origin nowhere), List.map_append, List.append_assoc]
  rfl

end Continued

/-! ## Steps down -/

/-- A text that is one step down: the name of a directory or a file. -/
structure IsStep (text : String) : Prop where
  whole : '/' ∉ text.toList
  nonempty : text ≠ ""
  descends : text ≠ "." ∧ text ≠ ".."

namespace IsStep

variable {text : String}

theorem origin_eq (isStep : IsStep text) : (Path.mk text).origin = [] := by
  have whole := isStep.whole
  have other : text.toList ≠ ['.'] := fun same => isStep.descends.1 (String.toList_inj.1 same)
  rw [origin]
  generalize text.toList = characters at whole other
  fun_cases lead characters with
  | case1 body => exact absurd List.mem_cons_self whole
  | case2 => exact absurd rfl other
  | case3 body => simp at whole
  | case4 => rfl

theorem segments_eq (isStep : IsStep text) : (Path.mk text).segments = [text.toList] := by
  apply named_of_whole isStep.whole
  have nonempty : text.toList ≠ [] := by simpa using isStep.nonempty
  have other : text.toList ≠ ['.'] := fun same => isStep.descends.1 (String.toList_inj.1 same)
  simp [isIdle, nonempty, other]

theorem components_eq (isStep : IsStep text) : (Path.mk text).components = [.name text] := by
  have other : text.toList ≠ ['.', '.'] := fun same =>
    isStep.descends.2 (String.toList_inj.1 same)
  rw [Path.components_eq, isStep.origin_eq, isStep.segments_eq, List.map_singleton,
    Component.ofSegment, if_neg (by simpa using other), String.ofList_toList]
  rfl

end IsStep

section Steps

variable {names : List String} (areSteps : ∀ name ∈ names, IsStep name)

include areSteps

theorem origin_foldl_join (path : Path) : (names.foldl join path).origin = path.origin := by
  induction names generalizing path with
  | nil => rfl
  | cons name names ih =>
      have isStep := areSteps name List.mem_cons_self
      rw [List.foldl_cons, ih fun other member => areSteps other (List.mem_cons_of_mem name member),
        origin_join isStep.origin_eq]

/-- Steps down are the components that follow those of the path. -/
theorem components_foldl_join (path : Path) :
    (names.foldl join path).components = path.components ++ names.map .name := by
  induction names generalizing path with
  | nil => exact (List.append_nil _).symm
  | cons name names ih =>
      have isStep := areSteps name List.mem_cons_self
      rw [List.foldl_cons, ih fun other member => areSteps other (List.mem_cons_of_mem name member),
        components_join isStep.origin_eq, isStep.components_eq, List.append_assoc]
      rfl

end Steps

/-- The first path lies above the second: steps down lead from the one to the other. -/
def IsAbove (root path : Path) : Prop :=
  ∃ names : List String, names ≠ [] ∧ path.components = root.components ++ names.map .name

/-! ## Paths that end in a name -/

/-- The file name of a path whose last segment is a name. -/
theorem fileName?_of_segments {path : Path} {front : List (List Char)} {last : List Char}
    (ends : path.segments = front ++ [last]) (descends : last ≠ ['.', '.']) :
    path.fileName? = some (String.ofList last) := by
  have component : Component.ofSegment last = .name (String.ofList last) := by
    rw [Component.ofSegment, if_neg (by simpa using descends)]
  rw [fileName?, components_eq, ends, List.map_append, List.map_singleton, component,
    ← List.append_assoc, List.getLast?_concat]

end ClassAtlas.Path
