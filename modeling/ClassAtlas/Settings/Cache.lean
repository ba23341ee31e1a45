import ClassAtlas.Data.Reading

/-!
# Settings of the caches

How many values each cache may hold and for how long.  A record of settings need not
have all of its fields.
-/

namespace ClassAtlas

/-- The bounds of one cache. -/
structure CacheSettings where
  limit : Nat := 1000
  lifetimeSeconds : Nat := 3600
  deriving DecidableEq, Repr

namespace CacheSettings

def nanosecondsPerSecond : Nat := 1000000000

/-- The lifetime of a value in nanoseconds. -/
def lifetime (settings : CacheSettings) : Nat :=
  settings.lifetimeSeconds * nanosecondsPerSecond

def ofData? (mayGoOn : Bool) (data : Data) : Option CacheSettings := do
  let fields ← data.fields? ["max_entries", "ttl_seconds"] mayGoOn
  let default : CacheSettings := {}
  return {
    limit := ← fields.withDefault "max_entries" default.limit Data.natural?
    lifetimeSeconds := ←
      fields.withDefault "ttl_seconds" default.lifetimeSeconds Data.natural? }

def record (settings : CacheSettings) : Data :=
  .table [("max_entries", .natural settings.limit),
    ("ttl_seconds", .natural settings.lifetimeSeconds)]

end CacheSettings

/-- The bounds of all caches. -/
structure CachesSettings where
  modules : CacheSettings := {}
  classMetadata : CacheSettings := {}
  decompiler : CacheSettings := {}
  deriving DecidableEq, Repr

namespace CachesSettings

def ofData? (mayGoOn : Bool) (data : Data) : Option CachesSettings := do
  let fields ← data.fields? ["modules", "class_metadata", "decompiler"] mayGoOn
  let read := CacheSettings.ofData? mayGoOn
  return {
    modules := ← fields.withDefault "modules" {} read
    classMetadata := ← fields.withDefault "class_metadata" {} read
    decompiler := ← fields.withDefault "decompiler" {} read }

def record (settings : CachesSettings) : Data :=
  .table [("modules", settings.modules.record),
    ("class_metadata", settings.classMetadata.record),
    ("decompiler", settings.decompiler.record)]

end CachesSettings
end ClassAtlas
