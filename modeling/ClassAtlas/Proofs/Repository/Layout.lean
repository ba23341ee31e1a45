import ClassAtlas.Proofs.Path.Segments
import ClassAtlas.Proofs.Text.Cut
import ClassAtlas.Repository

/-!
# The layout of a repository

The archive of a dependency lies as many steps below the root as its group has segments, and
three more: the artifact, the version and the file name (`components_artifactPath`).  The name of
a file joins artifact, version and classifier by hyphens that each of them may hold, but the two
directories above the file tell the first two apart.  So the place of an archive gives back group,
artifact, version and classifier (`artifactPath_faithful`), and the sources of a dependency have
the place of its archive with the classifier `sources`.
-/

namespace ClassAtlas

open ClassAtlas.Path (IsStep)

namespace Dependency

variable {dependency left right : Dependency}

/-! ## Names of directories and files -/

/-- The segments of the group. -/
def groupSegments (dependency : Dependency) : List String :=
  (dependency.group.toList.splitOn '.').map String.ofList

/-- A dependency whose archive has a place of its own: what it is named by can stand in the names
of directories and files, and its archive carries classes. -/
structure IsPlaced (dependency : Dependency) : Prop where
  group : ∀ segment ∈ dependency.groupSegments, segment ≠ "" ∧ '/' ∉ segment.toList
  artifact : IsStep dependency.artifact
  version : IsStep dependency.version
  classifier : ∀ classifier ∈ dependency.classifier, '/' ∉ classifier.toList
  type : dependency.type ∈ Repository.archiveTypes

/-- The steps from the root of a repository to the archive. -/
def steps (dependency : Dependency) : List String :=
  dependency.groupSegments ++ [dependency.artifact, dependency.version, dependency.archiveName]

/-- What stands for the classifier in the file name. -/
def classifierText (dependency : Dependency) : List Char :=
  match dependency.classifier with
  | some classifier => '-' :: classifier.toList
  | none => []

theorem groupPath_eq : dependency.groupPath = dependency.groupSegments.foldl Path.join ⟨""⟩ := by
  rw [groupPath, groupSegments, List.foldl_map]

theorem group_eq_of_groupSegments (same : left.groupSegments = right.groupSegments) :
    left.group = right.group := by
  have pieces := List.map_injective_iff.2 (fun _ _ => String.ofList_injective) same
  rw [← String.toList_inj]
  calc left.group.toList
    _ = ['.'].intercalate (left.group.toList.splitOn '.') := (List.intercalate_splitOn '.').symm
    _ = ['.'].intercalate (right.group.toList.splitOn '.') := by rw [pieces]
    _ = right.group.toList := List.intercalate_splitOn '.'

theorem classifier_eq_of_classifierText (same : left.classifierText = right.classifierText) :
    left.classifier = right.classifier := by
  rw [classifierText, classifierText] at same
  cases isLeft : left.classifier with
  | none =>
      cases isRight : right.classifier with
      | none => rfl
      | some second => simp [isLeft, isRight] at same
  | some first =>
      cases isRight : right.classifier with
      | none => simp [isLeft, isRight] at same
      | some second =>
          simp only [isLeft, isRight, List.cons.injEq, true_and, String.toList_inj] at same
          rw [same]

/-- The five types of archives that carry classes have one extension. -/
theorem extension_of_mem_archiveTypes (carries : dependency.type ∈ Repository.archiveTypes) :
    dependency.extension = "jar" := by
  have each : ∀ type ∈ Repository.archiveTypes, type = "jar" ∨ jarTypes.contains type = true := by
    decide
  rw [extension]
  rcases each _ carries with jar | listed
  · rw [jar]
    exact ite_id _
  · rw [if_pos listed]

namespace IsPlaced

/-- A segment of the group is one step, since no dot is left in it. -/
theorem isStep_of_mem (placed : dependency.IsPlaced) {segment : String}
    (member : segment ∈ dependency.groupSegments) : IsStep segment := by
  obtain ⟨nonempty, whole⟩ := placed.group segment member
  obtain ⟨piece, inGroup, rfl⟩ := List.mem_map.1 member
  have dotless : '.' ∉ (String.ofList piece).toList := by
    rw [String.toList_ofList]
    exact Text.not_mem_of_mem_splitOn inGroup
  refine ⟨whole, nonempty, ?_, ?_⟩
  · intro same
    rw [same] at dotless
    exact dotless (by decide)
  · intro same
    rw [same] at dotless
    exact dotless (by decide)

theorem toList_archiveName (placed : dependency.IsPlaced) :
    dependency.archiveName.toList = dependency.artifact.toList ++
      ('-' :: (dependency.version.toList ++ (dependency.classifierText ++ ".jar".toList))) := by
  rw [archiveName, extension_of_mem_archiveTypes placed.type, classifierText]
  cases dependency.classifier <;> simp

theorem isStep_archiveName (placed : dependency.IsPlaced) : IsStep dependency.archiveName := by
  have hyphen : '-' ∈ dependency.archiveName.toList := by
    rw [placed.toList_archiveName]
    exact List.mem_append_right _ List.mem_cons_self
  have classifier : '/' ∉ dependency.classifierText := by
    rw [classifierText]
    split
    · rename_i classifier isClassifier
      simpa using placed.classifier classifier isClassifier
    · exact List.not_mem_nil
  refine ⟨?_, ?_, ?_, ?_⟩
  · rw [placed.toList_archiveName]
    simp [placed.artifact.whole, placed.version.whole, classifier]
  all_goals
    intro same
    rw [same] at hyphen
    exact absurd hyphen (by decide)

theorem isStep_of_mem_steps (placed : dependency.IsPlaced) {step : String}
    (member : step ∈ dependency.steps) : IsStep step := by
  rw [steps, List.mem_append] at member
  rcases member with inGroup | rest
  · exact placed.isStep_of_mem inGroup
  · simp only [List.mem_cons, List.not_mem_nil, or_false] at rest
    rcases rest with rfl | rfl | rfl
    · exact placed.artifact
    · exact placed.version
    · exact placed.isStep_archiveName

/-- The steps to an archive are those of one dependency only. -/
theorem steps_eq_iff (leftPlaced : left.IsPlaced) (rightPlaced : right.IsPlaced) :
    left.steps = right.steps ↔ left.group = right.group ∧ left.artifact = right.artifact ∧
      left.version = right.version ∧ left.classifier = right.classifier := by
  constructor
  · intro same
    obtain ⟨segments, names⟩ := List.append_inj' same rfl
    simp only [List.cons.injEq, and_true] at names
    obtain ⟨artifact, version, file⟩ := names
    refine ⟨group_eq_of_groupSegments segments, artifact, version, ?_⟩
    rw [← String.toList_inj, leftPlaced.toList_archiveName, rightPlaced.toList_archiveName,
      artifact, version] at file
    apply classifier_eq_of_classifierText
    simpa using file
  · rintro ⟨group, artifact, version, classifier⟩
    have file : left.archiveName = right.archiveName := by
      rw [archiveName, archiveName, extension_of_mem_archiveTypes leftPlaced.type,
        extension_of_mem_archiveTypes rightPlaced.type, artifact, version, classifier]
    rw [steps, steps, groupSegments, groupSegments, group, artifact, version, file]

end IsPlaced

/-- The sources of a dependency as a dependency of their own. -/
def ofSources (dependency : Dependency) : Dependency :=
  { dependency with classifier := some "sources", type := "jar" }

theorem IsPlaced.ofSources (placed : dependency.IsPlaced) : dependency.ofSources.IsPlaced where
  group := placed.group
  artifact := placed.artifact
  version := placed.version
  classifier := by
    rintro _ ⟨⟩
    decide
  type := List.mem_cons_self

theorem archiveName_ofSources : dependency.ofSources.archiveName = dependency.sourcesName := by
  have jar : dependency.ofSources.extension = "jar" :=
    extension_of_mem_archiveTypes List.mem_cons_self
  rw [archiveName, sourcesName, jar, ← String.toList_inj]
  simp [Dependency.ofSources]

end Dependency

namespace Repository

variable {repository : Repository} {dependency : Dependency}

/-! ## Places of archives -/

theorem sourcesPath_eq : repository.sourcesPath dependency =
    repository.artifactPath dependency.ofSources := by
  rw [sourcesPath, artifactPath, Dependency.archiveName_ofSources]
  rfl

/-- The steps to an archive are the components that follow those of the root. -/
theorem components_artifactPath (placed : dependency.IsPlaced) :
    (repository.artifactPath dependency).components =
      repository.root.components ++ dependency.steps.map .name := by
  have inGroup : ∀ segment ∈ dependency.groupSegments, IsStep segment :=
    fun _ member => placed.isStep_of_mem member
  have nowhere : dependency.groupPath.origin = [] := by
    rw [Dependency.groupPath_eq, Path.origin_foldl_join inGroup]
    rfl
  have group : dependency.groupPath.components = dependency.groupSegments.map .name := by
    rw [Dependency.groupPath_eq, Path.components_foldl_join inGroup]
    rfl
  have below : ∀ step ∈ [dependency.artifact, dependency.version, dependency.archiveName],
      IsStep step :=
    fun _ member => placed.isStep_of_mem_steps (List.mem_append_right _ member)
  have path : repository.artifactPath dependency =
      [dependency.artifact, dependency.version, dependency.archiveName].foldl Path.join
        (repository.root.join dependency.groupPath.text) := rfl
  have joined : (repository.root.join dependency.groupPath.text).components =
      repository.root.components ++ dependency.groupPath.components := Path.components_join nowhere
  rw [path, Path.components_foldl_join below, joined, group, Dependency.steps, List.map_append,
    List.append_assoc]

theorem root_isAbove_artifactPath (placed : dependency.IsPlaced) :
    repository.root.IsAbove (repository.artifactPath dependency) :=
  ⟨dependency.steps, by simp [Dependency.steps], components_artifactPath placed⟩

theorem same_artifactPath_iff {left right : Dependency} (leftPlaced : left.IsPlaced)
    (rightPlaced : right.IsPlaced) :
    (repository.artifactPath left).same (repository.artifactPath right) = true ↔
      left.group = right.group ∧ left.artifact = right.artifact ∧
        left.version = right.version ∧ left.classifier = right.classifier := by
  have injective : Function.Injective Path.Component.name := fun _ _ => Path.Component.name.inj
  rw [Path.same_eq_true, components_artifactPath leftPlaced, components_artifactPath rightPlaced,
    List.append_cancel_left_eq, (List.map_injective_iff.2 injective).eq_iff,
    leftPlaced.steps_eq_iff rightPlaced]

/-- Archives lie below the root, each in a place of its own, and the sources of a dependency lie
where its archive with the classifier `sources` does. -/
theorem artifactPath_faithful (repository : Repository) (left right : Dependency)
    (leftPlaced : left.IsPlaced) (rightPlaced : right.IsPlaced) :
    repository.root.IsAbove (repository.artifactPath left) ∧
      repository.root.IsAbove (repository.artifactPath right) ∧
      ((repository.artifactPath left).same (repository.artifactPath right) = true ↔
        left.group = right.group ∧ left.artifact = right.artifact ∧
          left.version = right.version ∧ left.classifier = right.classifier) ∧
      ((repository.artifactPath left).same (repository.sourcesPath right) = true ↔
        left.group = right.group ∧ left.artifact = right.artifact ∧
          left.version = right.version ∧ left.classifier = some "sources") := by
  refine ⟨root_isAbove_artifactPath leftPlaced, root_isAbove_artifactPath rightPlaced,
    same_artifactPath_iff leftPlaced rightPlaced, ?_⟩
  rw [sourcesPath_eq]
  exact same_artifactPath_iff leftPlaced rightPlaced.ofSources

/-! ### Hyphens in names -/

namespace Hyphened

/-- Two dependencies whose archives have one file name. -/
def left : Dependency :=
  { group := "org.ex", artifact := "a", version := "b-1", classifier := some "sources",
    type := "test-jar" }

@[inherit_doc left]
def right : Dependency :=
  { group := "org.ex", artifact := "a-b", version := "1", classifier := some "sources" }

theorem left_isPlaced : left.IsPlaced where
  group := by decide +kernel
  artifact := ⟨by decide, by decide, by decide⟩
  version := ⟨by decide, by decide, by decide⟩
  classifier := by decide
  type := by decide

theorem right_isPlaced : right.IsPlaced where
  group := by decide +kernel
  artifact := ⟨by decide, by decide, by decide⟩
  version := ⟨by decide, by decide, by decide⟩
  classifier := by decide
  type := by decide

end Hyphened

/-- Archives of one file name lie apart. -/
theorem artifactPath_faithful_hyphened :
    Hyphened.left.archiveName = Hyphened.right.archiveName ∧
      Path.IsAbove ⟨"repo"⟩ (artifactPath ⟨⟨"repo"⟩⟩ Hyphened.left) ∧
      ¬(artifactPath ⟨⟨"repo"⟩⟩ Hyphened.left).same (artifactPath ⟨⟨"repo"⟩⟩ Hyphened.right) ∧
      (artifactPath ⟨⟨"repo"⟩⟩ Hyphened.left).same (sourcesPath ⟨⟨"repo"⟩⟩ Hyphened.left) := by
  have apart := artifactPath_faithful ⟨⟨"repo"⟩⟩ _ _ Hyphened.left_isPlaced Hyphened.right_isPlaced
  have own := artifactPath_faithful ⟨⟨"repo"⟩⟩ _ _ Hyphened.left_isPlaced Hyphened.left_isPlaced
  refine ⟨by decide +kernel, apart.1, ?_, own.2.2.2.2 ⟨rfl, rfl, rfl, rfl⟩⟩
  intro same
  exact absurd (apart.2.2.1.1 same).2.1 (by decide)

end Repository
end ClassAtlas
