import ClassAtlas.Proofs.Repository.Hydration

/-!
# Archives that are missing

A visible dependency that stands for an archive of classes is accounted for in one of two
reports: its archive is on the classpath of the hydrated module (`IsOnClasspath`), or it is
reported missing.  No dependency is in both.  One without a version is in neither, unless it
is a dependency on the system: where its archive belongs cannot be told
(`onClasspath_xor_missing`).
-/

namespace ClassAtlas

/-- The dependency stands for an archive of classes: by its type, or because it is one on the
system, which names its archive itself. -/
def Dependency.IsForClasses (dependency : Dependency) : Prop :=
  dependency.scope = .system ∨ dependency.type ∈ Repository.archiveTypes

namespace Repository

/-- The archive of the dependency is found, and the hydrated module lists it in one spelling or
another. -/
def IsOnClasspath (files : FileTree) (repository : Repository) (module : Module)
    (dependency : Dependency) : Prop :=
  ∃ path, repository.locate files dependency = some path ∧
    ∃ archive ∈ (repository.hydrate files module).classpathArchives, archive.same path = true

section Accounts

variable {files : FileTree} {repository : Repository} {module : Module} {dependency : Dependency}

theorem mem_visible :
    dependency ∈ visible module ↔
      dependency ∈ module.dependencies ∧ dependency.scope.isVisibleIn module.scope = true :=
  List.mem_filter

/-- Whatever archive is found for a visible dependency is listed. -/
theorem isOnClasspath_iff (isVisible : dependency ∈ visible module) :
    IsOnClasspath files repository module dependency ↔
      (repository.locate files dependency).isSome = true := by
  rw [Option.isSome_iff_exists]
  constructor
  · rintro ⟨path, located, -⟩
    exact ⟨path, located⟩
  · rintro ⟨path, located⟩
    have found : path ∈ (visible module).filterMap (repository.locate files) :=
      List.mem_filterMap.2 ⟨dependency, isVisible, located⟩
    exact ⟨path, located, Path.exists_same_of_mem found⟩

theorem mem_missing_iff :
    dependency ∈ repository.missing files module ↔
      dependency ∈ visible module ∧
        (carriesClasses dependency = true ∨ dependency.scope = .system) ∧
        repository.locate files dependency = none := by
  simp [missing, List.mem_filter]

theorem carriesClasses_iff :
    carriesClasses dependency = true ↔
      dependency.version ≠ unknownVersion ∧ dependency.type ∈ archiveTypes := by
  simp [carriesClasses]

/-- An archive is looked for exactly when its absence is worth a report. -/
theorem isExpected_of_locate {path : Path}
    (located : repository.locate files dependency = some path) :
    carriesClasses dependency = true ∨ dependency.scope = .system := by
  rw [locate] at located
  split at located
  · rename_i onSystem
    exact .inr (beq_iff_eq.1 onSystem)
  · split at located
    · rename_i carries
      exact .inl carries
    · cases located

end Accounts

/-- A visible dependency that stands for an archive of classes is either on the classpath or
reported missing, and never both, exactly when it has a version or is one on the system.  Of
the others none is in either report. -/
theorem onClasspath_xor_missing (files : FileTree) (repository : Repository) (module : Module)
    (dependency : Dependency) (among : dependency ∈ module.dependencies)
    (isVisible : dependency.scope.isVisibleIn module.scope = true)
    (forClasses : dependency.IsForClasses) :
    (Xor (IsOnClasspath files repository module dependency)
        (dependency ∈ repository.missing files module) ↔
      dependency.scope = .system ∨ dependency.version ≠ unknownVersion) ∧
    ¬(IsOnClasspath files repository module dependency ∧
      dependency ∈ repository.missing files module) := by
  have visible : dependency ∈ visible module := mem_visible.2 ⟨among, isVisible⟩
  have expected : (carriesClasses dependency = true ∨ dependency.scope = .system) ↔
      (dependency.scope = .system ∨ dependency.version ≠ unknownVersion) := by
    rw [carriesClasses_iff]
    constructor
    · rintro (⟨versioned, -⟩ | onSystem)
      · exact .inr versioned
      · exact .inl onSystem
    · rintro (onSystem | versioned)
      · exact .inr onSystem
      · exact forClasses.elim .inr fun isArchive => .inl ⟨versioned, isArchive⟩
  rw [isOnClasspath_iff visible, mem_missing_iff, and_iff_right visible, expected]
  cases located : repository.locate files dependency with
  | none => simp [Xor]
  | some path =>
      have isExpected := expected.1 (isExpected_of_locate located)
      simp [Xor, isExpected]

/-! ### A repository with one archive -/

namespace OneArchive

/-- A dependency whose archive is there, one whose archive is not, and one without a version. -/
def found : Dependency := .of "g" "found" "1"

@[inherit_doc found]
def lost : Dependency := .of "g" "lost" "1"

@[inherit_doc found]
def unversioned : Dependency := .of "g" "unversioned" ""

def module : Module :=
  ({ descriptor := ⟨"m/pom.xml"⟩, dependencies := [found, lost, unversioned] } :
    Module.Draft).build

def repository : Repository := ⟨⟨"repo"⟩⟩

def files : FileTree :=
  .ofList [] [(⟨"repo/g/found/1/found-1.jar"⟩, .file { text := some "" })]

end OneArchive

open OneArchive in
theorem onClasspath_xor_missing_oneArchive :
    Xor (IsOnClasspath files repository module found) (found ∈ repository.missing files module) ∧
    Xor (IsOnClasspath files repository module lost) (lost ∈ repository.missing files module) ∧
    ¬Xor (IsOnClasspath files repository module unversioned)
      (unversioned ∈ repository.missing files module) := by
  have account := onClasspath_xor_missing files repository module
  have ofFound := account found (by decide +kernel) (by decide) (.inr (by decide))
  have ofLost := account lost (by decide +kernel) (by decide) (.inr (by decide))
  have ofUnversioned := account unversioned (by decide +kernel) (by decide) (.inr (by decide))
  refine ⟨ofFound.1.2 (.inr (by decide)), ofLost.1.2 (.inr (by decide)), ?_⟩
  exact mt ofUnversioned.1.1 (by decide +kernel)

/-- A visible dependency on an archive of classes can be in neither report. -/
theorem not_always_accounted :
    ¬∀ (files : FileTree) (repository : Repository) (module : Module) (dependency : Dependency),
      dependency ∈ module.dependencies →
        dependency.scope.isVisibleIn module.scope = true → dependency.IsForClasses →
          Xor (IsOnClasspath files repository module dependency)
            (dependency ∈ repository.missing files module) := by
  intro always
  have among : OneArchive.unversioned ∈ OneArchive.module.dependencies := by decide +kernel
  have visible : OneArchive.unversioned ∈ visible OneArchive.module :=
    mem_visible.2 ⟨among, by decide⟩
  have accounted := always OneArchive.files OneArchive.repository OneArchive.module
    OneArchive.unversioned among (by decide) (.inr (by decide))
  rw [isOnClasspath_iff visible] at accounted
  have unlisted : ¬(OneArchive.repository.locate OneArchive.files
      OneArchive.unversioned).isSome = true := by decide +kernel
  have unreported : OneArchive.unversioned ∉
      OneArchive.repository.missing OneArchive.files OneArchive.module := by decide +kernel
  rcases accounted with ⟨listed, -⟩ | ⟨reported, -⟩
  · exact unlisted listed
  · exact unreported reported

end Repository
end ClassAtlas
