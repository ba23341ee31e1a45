import ClassAtlas.Proofs.Path.Distinct
import ClassAtlas.Repository

/-!
# What hydration changes

Hydration changes six fields of a module and leaves the others alone.  Each of the views that
it fills is told by the first occurrences among what is found for the visible dependencies, in
their order (`hydrate_exact`).  A dependency keeps all but its archive, and where an archive
belongs does not depend on what has been noted before; so hydrating once more changes nothing.
-/

namespace ClassAtlas

/-! ## Modules that are built -/

/-- Nothing is left to be filled in. -/
structure Module.IsComplete (module : Module) : Prop where
  version : Text.isBlankString module.version = false
  packaging : Text.isBlankString module.packaging = false

theorem not_isBlankString_orWhenBlank {default : String} (text : String)
    (solid : Text.isBlankString default = false) :
    Text.isBlankString (orWhenBlank default text) = false := by
  cases blank : Text.isBlankString text with
  | true => rw [orWhenBlank, if_pos blank, solid]
  | false => rw [orWhenBlank, blank, if_neg Bool.false_ne_true, blank]

theorem orWhenBlank_of_solid {text : String} (default : String)
    (solid : Text.isBlankString text = false) : orWhenBlank default text = text := by
  rw [orWhenBlank, solid]
  rfl

theorem Module.Draft.isComplete_build (draft : Draft) : draft.build.IsComplete := by
  constructor
  · exact not_isBlankString_orWhenBlank _ (by decide +kernel)
  · exact not_isBlankString_orWhenBlank _ (by decide +kernel)

namespace Repository

variable (files : FileTree) (repository : Repository)

/-! ## One dependency -/

/-- A dependency keeps every field but its archive. -/
theorem withArchive_eq (dependency : Dependency) :
    repository.withArchive files dependency =
      { dependency with
        archive := (repository.locate files dependency).or dependency.archive } := by
  rw [withArchive]
  cases repository.locate files dependency with
  | none => rfl
  | some path => rfl

@[simp] theorem locate_withArchive (dependency : Dependency) :
    repository.locate files (repository.withArchive files dependency) =
      repository.locate files dependency := by
  rw [withArchive_eq]
  rfl

@[simp] theorem locateSources_withArchive (dependency : Dependency) :
    repository.locateSources files (repository.withArchive files dependency) =
      repository.locateSources files dependency := by
  rw [withArchive_eq]
  rfl

@[simp] theorem withArchive_withArchive (dependency : Dependency) :
    repository.withArchive files (repository.withArchive files dependency) =
      repository.withArchive files dependency := by
  rw [withArchive_eq files repository (repository.withArchive files dependency),
    locate_withArchive, withArchive_eq]
  cases repository.locate files dependency with
  | none => rfl
  | some path => rfl

/-! ## The module -/

variable {files repository} {module : Module}

/-- What is built again from the draft of a complete module is that module. -/
theorem hydrate_eq (complete : module.IsComplete) :
    repository.hydrate files module =
      { module with
        localRepository := some repository.root
        dependencies := module.dependencies.map (repository.withArchive files)
        classpath := Path.distinct (module.classpath ++
          (if module.scope == .test then [module.testOutputDirectory] else []) ++
            repository.archives files module)
        classpathArchives := repository.archives files module
        sourceArchives := repository.sources files module } := by
  have version := orWhenBlank_of_solid unknownVersion complete.version
  have packaging := orWhenBlank_of_solid "jar" complete.packaging
  rw [hydrate, Module.Draft.build]
  simp only [Module.toDraft, Option.getD_some, Option.orElse_some, version, packaging]

/-- The dependencies of a hydrated module that are visible. -/
theorem visible_hydrate :
    visible (repository.hydrate files module) =
      (visible module).map (repository.withArchive files) := by
  have scopes : (fun dependency : Dependency => dependency.scope.isVisibleIn module.scope) ∘
      repository.withArchive files = fun dependency => dependency.scope.isVisibleIn module.scope := by
    funext dependency
    rw [Function.comp_apply, withArchive_eq]
  calc visible (repository.hydrate files module)
    _ = (module.dependencies.map (repository.withArchive files)).filter
          fun dependency => dependency.scope.isVisibleIn module.scope := rfl
    _ = (visible module).map (repository.withArchive files) := by
        rw [List.filter_map, scopes, visible]

theorem archives_hydrate :
    repository.archives files (repository.hydrate files module) =
      repository.archives files module := by
  have locations : repository.locate files ∘ repository.withArchive files =
      repository.locate files := funext (locate_withArchive files repository)
  rw [archives, visible_hydrate, List.filterMap_map, locations, archives]

theorem sources_hydrate :
    repository.sources files (repository.hydrate files module) =
      repository.sources files module := by
  have located : (fun dependency => (repository.locate files dependency).isSome) ∘
      repository.withArchive files =
        fun dependency => (repository.locate files dependency).isSome := by
    funext dependency
    rw [Function.comp_apply, locate_withArchive]
  have locations : repository.locateSources files ∘ repository.withArchive files =
      repository.locateSources files := funext (locateSources_withArchive files repository)
  rw [sources, visible_hydrate, List.filter_map, List.filterMap_map, located, locations, sources]

/-- Hydrating once more changes nothing. -/
theorem hydrate_hydrate (complete : module.IsComplete) :
    repository.hydrate files (repository.hydrate files module) =
      repository.hydrate files module := by
  have version : (repository.hydrate files module).version = module.version := by
    rw [hydrate_eq complete]
  have packaging : (repository.hydrate files module).packaging = module.packaging := by
    rw [hydrate_eq complete]
  have completeToo : (repository.hydrate files module).IsComplete := by
    constructor
    · rw [version]
      exact complete.version
    · rw [packaging]
      exact complete.packaging
  -- the additions to the classpath are on it after the first time
  have known : ∀ additions listed : List Path,
      Path.distinct (Path.distinct (listed ++ additions) ++ additions) =
        Path.distinct (listed ++ additions) := by
    intro additions listed
    rw [Path.distinct_append_of_known, Path.distinct_distinct]
    intro path member
    rw [Path.components_distinct, List.map_append]
    exact List.mem_append_right _ (List.mem_map_of_mem member)
  rw [hydrate_eq completeToo, archives_hydrate, sources_hydrate, hydrate_eq complete]
  simp only [List.append_assoc, known, List.map_map, Function.comp_def, withArchive_withArchive]

/-- The classpath is continued by what it does not list yet. -/
theorem distinct_classpath (module : Module) (archives : List Path) :
    let listed := module.classpath.eraseDupsBy Path.same
    let directories := listed ++
      if module.scope = .test then Path.unlisted listed [module.testOutputDirectory] else []
    Path.distinct (module.classpath ++
      (if module.scope == .test then [module.testOutputDirectory] else []) ++ archives) =
        directories ++ Path.unlisted directories (Path.distinct archives) := by
  intro listed directories
  have front : Path.distinct (module.classpath ++
      if module.scope == .test then [module.testOutputDirectory] else []) = directories := by
    by_cases isTest : module.scope = .test
    · rw [if_pos (beq_iff_eq.2 isTest), Path.distinct_append_eq, Path.distinct_eq_eraseDupsBy]
      exact congrArg (listed ++ ·) (if_pos isTest).symm
    · rw [if_neg (mt beq_iff_eq.1 isTest), List.append_nil, Path.distinct_eq_eraseDupsBy]
      exact (List.append_nil listed).symm.trans (congrArg (listed ++ ·) (if_neg isTest).symm)
  rw [Path.distinct_append_eq, front]

/-- Hydration is exact.  The archives on the classpath are the first occurrences of those that
are found for the visible dependencies; the source archives are those of the visible
dependencies whose archive is found; the classpath is continued by what it does not list yet;
and a dependency that has an archive is given it.  Nothing else is changed, and nothing at all
by hydrating once more. -/
theorem hydrate_exact (files : FileTree) (repository : Repository) (draft : Module.Draft) :
    let module := draft.build
    let hydrated := repository.hydrate files module
    let archives := ((visible module).filterMap (repository.locate files)).eraseDupsBy Path.same
    let located := (visible module).filter fun dependency =>
      (repository.locate files dependency).isSome
    let listed := module.classpath.eraseDupsBy Path.same
    let directories := listed ++
      if module.scope = .test then Path.unlisted listed [module.testOutputDirectory] else []
    hydrated = { module with
        localRepository := some repository.root
        dependencies := module.dependencies.map fun dependency => { dependency with
          archive := (repository.locate files dependency).or dependency.archive }
        classpath := directories ++ Path.unlisted directories archives
        classpathArchives := archives
        sourceArchives :=
          (located.filterMap (repository.locateSources files)).eraseDupsBy Path.same } ∧
      repository.hydrate files hydrated = hydrated := by
  intro module hydrated archives located listed directories
  have complete : module.IsComplete := draft.isComplete_build
  have onClasspath : repository.archives files module = archives :=
    Path.distinct_eq_eraseDupsBy _
  have sources : repository.sources files module =
      (located.filterMap (repository.locateSources files)).eraseDupsBy Path.same :=
    Path.distinct_eq_eraseDupsBy _
  have classpath : Path.distinct (module.classpath ++
      (if module.scope == .test then [module.testOutputDirectory] else []) ++
        repository.archives files module) = directories ++ Path.unlisted directories archives := by
    rw [distinct_classpath, Repository.archives, Path.distinct_distinct,
      Path.distinct_eq_eraseDupsBy ((visible module).filterMap _)]
  have noted : repository.withArchive files = fun dependency => { dependency with
      archive := (repository.locate files dependency).or dependency.archive } :=
    funext (withArchive_eq files repository)
  constructor
  · calc repository.hydrate files module
      _ = _ := hydrate_eq complete
      _ = _ := by rw [classpath, onClasspath, sources, noted]
  · exact hydrate_hydrate complete

/-- A dependency of which the repository has the sources but not the archive. -/
def sourcesOnly : Module.Draft where
  descriptor := ⟨"m/pom.xml"⟩
  dependencies := [.of "g" "a" "1"]

/-- Without the archive of a dependency its sources are not listed, though they are there. -/
theorem sources_unlisted_without_archive :
    ¬∀ (files : FileTree) (repository : Repository) (draft : Module.Draft),
      (repository.hydrate files draft.build).sourceArchives =
        ((visible draft.build).filterMap (repository.locateSources files)).eraseDupsBy
          Path.same := by
  intro literal
  have listed := literal
    (.ofList [] [(⟨"repo/g/a/1/a-1-sources.jar"⟩, .file { text := some "s" })]) ⟨⟨"repo"⟩⟩ sourcesOnly
  revert listed
  decide +kernel

end Repository

end ClassAtlas
