import ClassAtlas.Proofs.Cache.Limit
import ClassAtlas.Session

/-!
# Names looked up through the cache

What names mean is looked up in a cache first.  Within a run the key of a class tells
the name, and with the name all that its meaning depends on.  So a cache that is only
filled with meanings gives none but the right one, however the names repeat, however few
values there is room for, however soon they expire and whatever the clock shows
(`resolveNames_eq_map`).
-/

namespace ClassAtlas

namespace Cache

variable {α β : Type} [DecidableEq α]

/-- Every stored value is what its key means. -/
structure Reflects (meaning : α → β) (cache : Cache α β) : Prop where
  ticketed : cache.Ticketed
  stored : ∀ key stored, cache.stored? key = some stored → stored.value = meaning key

variable {meaning : α → β} {cache : Cache α β}

theorem reflects_new (name : String) (limit lifetime : Nat) :
    (new name limit lifetime : Cache α β).Reflects meaning where
  ticketed := ticketed_new name limit lifetime
  stored key stored held := by simp at held

/-- Finding a slot brings no value. -/
theorem Reflects.stored_enter (reflects : cache.Reflects meaning) (now : Nat) (key other : α)
    (stored : Stored β) (held : (cache.enter now key).1.stored? other = some stored) :
    stored.value = meaning other := by
  rw [stored?_enter] at held
  split at held
  · rename_i same
    subst same
    exact reflects.stored other stored (stored?_of_visible held)
  · exact reflects.stored other stored held

/-- A lookup that loads the meaning where nothing is found gives the meaning, and leaves
meanings only. -/
theorem Reflects.load (reflects : cache.Reflects meaning) (began ended : Nat) (key : α) :
    (cache.load began ended key (.ok (meaning key))).2.answer = .ok (meaning key) ∧
      (cache.load began ended key (.ok (meaning key))).1.Reflects meaning := by
  have ticketed := reflects.ticketed.follows (follows_load cache began ended key (.ok (meaning key)))
  cases seen : cache.visible? began key with
  | some found =>
      rw [load_of_visible seen] at ticketed ⊢
      constructor
      · exact congrArg Except.ok (reflects.stored key found (stored?_of_visible seen))
      · constructor
        · exact ticketed
        · intro other stored held
          rw [stored?_countHit] at held
          exact reflects.stored_enter began key other stored held
  | none =>
      rw [load_ok seen] at ticketed ⊢
      constructor
      · rfl
      · constructor
        · exact ticketed
        · intro other stored held
          have filled := stored?_of_trim held
          rw [stored?_countMiss, stored?_fill_enter reflects.ticketed seen] at filled
          split at filled
          · rename_i same
            cases filled
            rw [same]
          · exact reflects.stored other stored filled

end Cache

@[simp] theorem ClassKey.className_inModule (module : Module) (name : String) :
    (inModule module name).className = name := rfl

namespace Session

theorem resolveNames_cons (context : NameContext) (clock : Nat → Nat) (readings : Nat)
    (cache : Cache ClassKey Resolution) (name : String) (names : List String) :
    let loaded := cache.load (clock readings) (clock (readings + 1))
      (.inModule context.module name) (.ok (context.resolve name))
    resolveNames context clock readings cache (name :: names) =
      loaded.2.answer.toOption.toList ++
        resolveNames context clock (readings + 2) loaded.1 names := rfl

/-- Looking names up in a cache that holds meanings only is working out each of them. -/
theorem resolveNames_of_reflects {context : NameContext} {cache : Cache ClassKey Resolution}
    (reflects : cache.Reflects fun key => context.resolve key.className) (clock : Nat → Nat)
    (readings : Nat) (names : List String) :
    resolveNames context clock readings cache names = names.map context.resolve := by
  induction names generalizing cache readings with
  | nil => rfl
  | cons name names ih =>
      obtain ⟨answer, after⟩ := reflects.load (clock readings) (clock (readings + 1))
        (.inModule context.module name)
      have others := ih after (readings + 2)
      simp only [ClassKey.className_inModule] at answer others
      rw [resolveNames_cons, answer, others]
      rfl

/-- Where names are looked up for a command. -/
def nameContext (session : Session) (choice : ModuleChoice) (imports : List String)
    (package : Option String) (source : Option Path) : Except Failure NameContext := do
  let header ← session.sourceHeader source
  let module ← session.chosenModule choice
  return {
    module
    index := (session.buildIndex module).1
    imports := imports ++ header.imports
    package := package.orElse fun _ => header.package }

/-- What is printed for resolved names. -/
def resolutionsOutput (asRecord : Bool) (resolutions : List Resolution) : String :=
  if asRecord then recordText (.list (resolutions.map Resolution.record))
  else Report.resolutionsText resolutions

/-- The cache of classes is never noticed: names that are looked up through it mean what
each of them means on its own, and the command that resolves names prints these meanings. -/
theorem resolveNames_eq_map :
    (∀ (context : NameContext) (settings : CachesSettings) (clock : Nat → Nat)
        (names : List String),
      resolveNames context clock 0 (CacheRegistry.ofSettings settings).classMetadata names =
        names.map context.resolve) ∧
    ∀ (session : Session) (choice : ModuleChoice) (names imports : List String)
        (package : Option String) (source : Option Path) (asRecord : Bool),
      session.run (.resolve choice names imports package source asRecord) =
        (session.nameContext choice imports package source).map fun context =>
          resolutionsOutput asRecord (names.map context.resolve) := by
  have direct : ∀ (context : NameContext) (settings : CachesSettings) (clock : Nat → Nat)
      (names : List String),
      resolveNames context clock 0 (CacheRegistry.ofSettings settings).classMetadata names =
        names.map context.resolve := by
    intro context settings clock names
    exact resolveNames_of_reflects (Cache.reflects_new _ _ _) clock 0 names
  refine ⟨direct, ?_⟩
  intro session choice names imports package source asRecord
  simp only [run, nameContext]
  cases session.sourceHeader source with
  | error failure => rfl
  | ok header =>
      cases session.chosenModule choice with
      | error failure => rfl
      | ok module =>
          have named := fun context =>
            direct context session.settings.caches session.clock names
          simp only [registry, named, resolutionsOutput, bind, Except.bind, Except.map, pure,
            Except.pure]

end Session
end ClassAtlas
