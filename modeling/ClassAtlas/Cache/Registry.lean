import ClassAtlas.Cache.Basic
import ClassAtlas.Module
import ClassAtlas.Settings.Cache

/-!
# The caches of a run

A run keeps three caches: resolved modules by the path of their descriptor, what is known
about classes, and sources recovered from compiled classes.
-/

namespace ClassAtlas

/-- A class among all that are ever looked at: by the module that it belongs to when that
is known, otherwise by the classpath on which it was found. -/
inductive ClassKey where
  | ofModule (group artifact version className : String)
  | ofClasspath (classpath className : String)
  deriving DecidableEq, Repr

namespace ClassKey

def inModule (module : Module) (className : String) : ClassKey :=
  .ofModule module.group module.artifact module.version className

def className : ClassKey → String
  | .ofModule _ _ _ className => className
  | .ofClasspath _ className => className

/-- The key on one line. -/
def text : ClassKey → String
  | .ofModule group artifact version className =>
      ":".intercalate ["gav", group, artifact, version, className]
  | .ofClasspath classpath className => ":".intercalate ["cp", classpath, className]

end ClassKey

/-- The caches of a run; `μ` is what is known about a class. -/
structure CacheRegistry (μ : Type) where
  /-- Modules by the meaning of their descriptor's path. -/
  modules : Cache (List Path.Component) Module
  classMetadata : Cache ClassKey μ
  /-- Sources by the name of their class. -/
  decompiled : Cache String String

namespace CacheRegistry

variable {μ : Type}

/-- Empty caches. -/
def ofSettings (settings : CachesSettings) : CacheRegistry μ where
  modules := .new "modules" settings.modules.limit settings.modules.lifetime
  classMetadata :=
    .new "class_metadata" settings.classMetadata.limit settings.classMetadata.lifetime
  decompiled := .new "decompiler" settings.decompiler.limit settings.decompiler.lifetime

def invalidateAll (registry : CacheRegistry μ) : CacheRegistry μ where
  modules := registry.modules.invalidateAll
  classMetadata := registry.classMetadata.invalidateAll
  decompiled := registry.decompiled.invalidateAll

/-- Cleans up all caches, and tells how many values were dropped. -/
def cleanup (registry : CacheRegistry μ) (now : Nat) : CacheRegistry μ × Nat :=
  let (modules, droppedModules) := registry.modules.cleanup now fun _ => false
  let (classMetadata, droppedMetadata) := registry.classMetadata.cleanup now fun _ => false
  let (decompiled, droppedSources) := registry.decompiled.cleanup now fun _ => false
  (⟨modules, classMetadata, decompiled⟩,
    droppedModules + droppedMetadata + droppedSources)

/-- The name and the counters of each cache. -/
def counters (registry : CacheRegistry μ) : List (String × Cache.Counters) :=
  [(registry.modules.name, registry.modules.counters),
    (registry.classMetadata.name, registry.classMetadata.counters),
    (registry.decompiled.name, registry.decompiled.counters)]

/-- How many values each cache holds that are not expired. -/
def sizes (registry : CacheRegistry μ) (now : Nat) : List Nat :=
  [registry.modules.size now, registry.classMetadata.size now, registry.decompiled.size now]

end CacheRegistry
end ClassAtlas
