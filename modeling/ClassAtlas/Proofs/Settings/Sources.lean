import ClassAtlas.Settings.Basic

/-!
# What is said about a setting

Each setting of a run is looked at on its own: where its value stands in the settings of a run,
in a settings file and in a layer of overrides.  A file that can be read gives each setting the
value that stands in it, or else the default (`Setting.of_ofData?`), and a layer changes exactly
the settings about which it says something (`Setting.of_override`).
-/

namespace ClassAtlas

/-- One of the caches of a run. -/
inductive CacheName where
  | modules
  | classMetadata
  | decompiler

/-- A single setting of a run. -/
inductive Setting where
  | executable
  | settingsFile
  | localRepository
  | offline
  | updateSnapshots
  | failFast
  | timeout
  | level
  | asRecords
  | scanLimit
  | cacheLimit (cache : CacheName)
  | cacheLifetime (cache : CacheName)

/-- The bounds of a cache. -/
def CacheName.of (caches : CachesSettings) : CacheName → CacheSettings
  | .modules => caches.modules
  | .classMetadata => caches.classMetadata
  | .decompiler => caches.decompiler

/-- The name of a cache in a settings file. -/
def CacheName.key : CacheName → String
  | .modules => "modules"
  | .classMetadata => "class_metadata"
  | .decompiler => "decompiler"

namespace Setting

/-- The values of a setting.  A path may be missing. -/
def Value : Setting → Type
  | .executable | .settingsFile | .localRepository => Option Path
  | .offline | .updateSnapshots | .failFast | .asRecords => Bool
  | .level => LogLevel
  | .timeout | .scanLimit | .cacheLimit _ | .cacheLifetime _ => Nat

/-- The value of a setting in a run. -/
def of (settings : Settings) : (setting : Setting) → setting.Value
  | .executable => settings.build.executable
  | .settingsFile => settings.build.settingsFile
  | .localRepository => settings.build.localRepository
  | .offline => settings.build.offline
  | .updateSnapshots => settings.build.updateSnapshots
  | .failFast => settings.build.failFast
  | .timeout => settings.build.timeoutSeconds
  | .level => settings.log.level
  | .asRecords => settings.log.asRecords
  | .scanLimit => settings.scanLimit
  | .cacheLimit cache => (cache.of settings.caches).limit
  | .cacheLifetime cache => (cache.of settings.caches).lifetimeSeconds

/-- The value of a setting about which nothing is said. -/
def default : (setting : Setting) → setting.Value
  | .executable | .settingsFile | .localRepository => (none : Option Path)
  | .offline | .updateSnapshots | .asRecords => false
  | .failFast => true
  | .timeout => (300 : Nat)
  | .level => LogLevel.warn
  | .scanLimit => (8 : Nat)
  | .cacheLimit _ => (1000 : Nat)
  | .cacheLifetime _ => (3600 : Nat)

theorem of_default (setting : Setting) : setting.of {} = setting.default := by
  cases setting with
  | cacheLimit cache => cases cache <;> rfl
  | cacheLifetime cache => cases cache <;> rfl
  | _ => rfl

/-! ## Layers -/

/-- What a layer says about a setting. -/
def inLayer (layer : Settings.Layer) : (setting : Setting) → Option setting.Value
  | .executable => layer.build.executable
  | .settingsFile => layer.build.settingsFile
  | .localRepository => layer.build.localRepository
  | .offline => layer.build.offline
  | .updateSnapshots => layer.build.updateSnapshots
  | .failFast => layer.build.failFast
  | .timeout => layer.build.timeoutSeconds
  | .level => layer.log.level
  | .asRecords => layer.log.asRecords
  | .scanLimit => layer.scanLimit
  | .cacheLimit _ | .cacheLifetime _ => none

end Setting

/-- Nothing changes where a layer says nothing. -/
theorem BuildSettings.override_of_isEmpty {layer : BuildSettings.Layer} (empty : layer.isEmpty)
    (settings : BuildSettings) : settings.override layer = settings := by
  simp only [Layer.isEmpty, Bool.and_eq_true, Option.isNone_iff_eq_none] at empty
  obtain ⟨⟨⟨⟨⟨⟨executable, file⟩, repository⟩, offline⟩, snapshots⟩, fast⟩, timeout⟩ := empty
  rw [override, executable, file, repository, offline, snapshots, fast, timeout]
  rfl

@[inherit_doc BuildSettings.override_of_isEmpty]
theorem LogSettings.override_of_isEmpty {layer : LogSettings.Layer} (empty : layer.isEmpty)
    (settings : LogSettings) : settings.override layer = settings := by
  simp only [Layer.isEmpty, Bool.and_eq_true, Option.isNone_iff_eq_none] at empty
  rw [override, empty.1, empty.2]
  rfl

/-- A part about which a layer says nothing need not be kept apart. -/
theorem Settings.override_eq (settings : Settings) (layer : Layer) :
    settings.override layer = { settings with
      build := settings.build.override layer.build
      log := settings.log.override layer.log
      scanLimit := layer.scanLimit.getD settings.scanLimit } := by
  have build : (if layer.build.isEmpty then settings.build
      else settings.build.withLayers [layer.build]) = settings.build.override layer.build := by
    split
    · rename_i empty
      exact (BuildSettings.override_of_isEmpty empty settings.build).symm
    · rfl
  have log : (if layer.log.isEmpty then settings.log else settings.log.withLayers [layer.log]) =
      settings.log.override layer.log := by
    split
    · rename_i empty
      exact (LogSettings.override_of_isEmpty empty settings.log).symm
    · rfl
  rw [override, build, log]

namespace Setting

/-- A layer changes the settings about which it says something, and no others. -/
theorem of_override (settings : Settings) (layer : Settings.Layer) (setting : Setting) :
    setting.of (settings.override layer) = (setting.inLayer layer).getD (setting.of settings) := by
  rw [Settings.override_eq]
  cases setting <;> rfl

end Setting

/-! ## The file -/

/-- The data that is reached through records, each with the names of its fields in order and the
name of the field that is entered. -/
def Data.follow (data : Data) : List (List String × String) → Option Data
  | [] => some data
  | (names, name) :: rest =>
      (data.fields? names true).bind fun fields =>
        (fields.find name).bind (Data.follow · rest)

/-- A field is entered once its record has been understood. -/
theorem Data.follow_cons {data : Data} {names : List String} {fields : Data.Fields}
    (isRecord : data.fields? names true = some fields) (name : String)
    (rest : List (List String × String)) :
    data.follow ((names, name) :: rest) = (fields.find name).bind (Data.follow · rest) := by
  rw [follow, isRecord]
  rfl

/-- The value that stands at a place in the data, or else the default.  There is none when what
stands there cannot be read. -/
def Data.valueAt {α : Type} (data : Data) (place : List (List String × String))
    (read : Data → Option α) (default : α) : Option α :=
  ((data.follow place).map read).getD (some default)

/-- A part of a record that is read from a field stands in that field, further inside. -/
theorem Data.Fields.valueAt_of_withDefault {α β : Type} {data : Data} {names : List String}
    {fields : Data.Fields} {name : String} {default record : α} {read : Data → Option α}
    {rest : List (List String × String)} {readPart : Data → Option β} (part : α → β)
    (isRecord : data.fields? names true = some fields)
    (found : fields.withDefault name default read = some record)
    (inside : ∀ {data record}, read data = some record →
      data.valueAt rest readPart (part default) = some (part record)) :
    data.valueAt ((names, name) :: rest) readPart (part default) = some (part record) := by
  rw [valueAt, follow_cons isRecord]
  rw [withDefault] at found
  cases given : fields.find name with
  | none =>
      rw [given] at found
      rw [← Option.some.inj found]
      rfl
  | some inner =>
      rw [given] at found
      exact inside found

@[inherit_doc Data.Fields.valueAt_of_withDefault]
theorem Data.Fields.valueAt_of_leaf {α : Type} {data : Data} {names : List String}
    {fields : Data.Fields} {name : String} {default value : α} {read : Data → Option α}
    (isRecord : data.fields? names true = some fields)
    (found : fields.withDefault name default read = some value) :
    data.valueAt [(names, name)] read default = some value := by
  apply valueAt_of_withDefault id isRecord found
  intro data value isValue
  exact isValue

namespace Setting

/-- The records of a settings file. -/
def sections : List String := ["maven", "cache", "index", "logging"]

@[inherit_doc sections]
def buildFields : List String :=
  ["executable", "settings_file", "local_repository", "offline", "update_snapshots", "fail_fast",
    "timeout_seconds"]

@[inherit_doc sections]
def logFields : List String := ["level", "json"]

@[inherit_doc sections]
def caches : List String := ["modules", "class_metadata", "decompiler"]

@[inherit_doc sections]
def cacheFields : List String := ["max_entries", "ttl_seconds"]

/-- Where a setting stands in a settings file. -/
def place : Setting → List (List String × String)
  | .executable => [(sections, "maven"), (buildFields, "executable")]
  | .settingsFile => [(sections, "maven"), (buildFields, "settings_file")]
  | .localRepository => [(sections, "maven"), (buildFields, "local_repository")]
  | .offline => [(sections, "maven"), (buildFields, "offline")]
  | .updateSnapshots => [(sections, "maven"), (buildFields, "update_snapshots")]
  | .failFast => [(sections, "maven"), (buildFields, "fail_fast")]
  | .timeout => [(sections, "maven"), (buildFields, "timeout_seconds")]
  | .level => [(sections, "logging"), (logFields, "level")]
  | .asRecords => [(sections, "logging"), (logFields, "json")]
  | .scanLimit => [(sections, "index"), (["max_concurrent_archives"], "max_concurrent_archives")]
  | .cacheLimit cache =>
      [(sections, "cache"), (caches, cache.key), (cacheFields, "max_entries")]
  | .cacheLifetime cache =>
      [(sections, "cache"), (caches, cache.key), (cacheFields, "ttl_seconds")]

/-- The value of a setting that is given as data. -/
def ofData? : (setting : Setting) → Data → Option setting.Value
  | .executable | .settingsFile | .localRepository => Data.optional Path.ofData?
  | .offline | .updateSnapshots | .failFast | .asRecords => Data.boolean?
  | .level => LogLevel.ofData?
  | .timeout | .scanLimit | .cacheLimit _ | .cacheLifetime _ => Data.natural?

/-- What a settings file says about a setting: nothing, or what stands there, as it is read. -/
def inFile (data : Data) (setting : Setting) : Option (Option setting.Value) :=
  (data.follow setting.place).map setting.ofData?

end Setting

/-! A record that is read has in each field what stands in the data, or the default. -/

theorem BuildSettings.valueAt_of_ofData? {data : Data} {settings : BuildSettings}
    (read : ofData? true data = some settings) :
    let path := fun name =>
      data.valueAt [(Setting.buildFields, name)] (Data.optional Path.ofData?) none
    let flag := fun name => data.valueAt [(Setting.buildFields, name)] Data.boolean?
    path "executable" = some settings.executable ∧
      path "settings_file" = some settings.settingsFile ∧
      path "local_repository" = some settings.localRepository ∧
      flag "offline" false = some settings.offline ∧
      flag "update_snapshots" false = some settings.updateSnapshots ∧
      flag "fail_fast" true = some settings.failFast ∧
      data.valueAt [(Setting.buildFields, "timeout_seconds")] Data.natural? 300 =
        some settings.timeoutSeconds := by
  simp only [ofData?, Option.bind_eq_bind, Option.bind_eq_some_iff, Option.pure_def,
    Option.some.injEq] at read
  obtain ⟨fields, isRecord, executable, isExecutable, file, isFile, repository, isRepository,
    offline, isOffline, snapshots, isSnapshots, fast, isFast, timeout, isTimeout, rfl⟩ := read
  exact ⟨Data.Fields.valueAt_of_leaf isRecord isExecutable,
    Data.Fields.valueAt_of_leaf isRecord isFile,
    Data.Fields.valueAt_of_leaf isRecord isRepository,
    Data.Fields.valueAt_of_leaf isRecord isOffline,
    Data.Fields.valueAt_of_leaf isRecord isSnapshots,
    Data.Fields.valueAt_of_leaf isRecord isFast,
    Data.Fields.valueAt_of_leaf isRecord isTimeout⟩

theorem LogSettings.valueAt_of_ofData? {data : Data} {settings : LogSettings}
    (read : ofData? true data = some settings) :
    data.valueAt [(Setting.logFields, "level")] LogLevel.ofData? .warn = some settings.level ∧
      data.valueAt [(Setting.logFields, "json")] Data.boolean? false =
        some settings.asRecords := by
  simp only [ofData?, Option.bind_eq_bind, Option.bind_eq_some_iff, Option.pure_def,
    Option.some.injEq] at read
  obtain ⟨fields, isRecord, level, isLevel, asRecords, isAsRecords, rfl⟩ := read
  exact ⟨Data.Fields.valueAt_of_leaf isRecord isLevel,
    Data.Fields.valueAt_of_leaf isRecord isAsRecords⟩

theorem CacheSettings.valueAt_of_ofData? {data : Data} {settings : CacheSettings}
    (read : ofData? true data = some settings) :
    let number := fun name => data.valueAt [(Setting.cacheFields, name)] Data.natural?
    number "max_entries" 1000 = some settings.limit ∧
      number "ttl_seconds" 3600 = some settings.lifetimeSeconds := by
  simp only [ofData?, Option.bind_eq_bind, Option.bind_eq_some_iff, Option.pure_def,
    Option.some.injEq] at read
  obtain ⟨fields, isRecord, limit, isLimit, lifetime, isLifetime, rfl⟩ := read
  exact ⟨Data.Fields.valueAt_of_leaf isRecord isLimit,
    Data.Fields.valueAt_of_leaf isRecord isLifetime⟩

theorem CachesSettings.valueAt_of_ofData? {data : Data} {settings : CachesSettings}
    (read : ofData? true data = some settings) (cache : CacheName) :
    let number := fun name =>
      data.valueAt [(Setting.caches, cache.key), (Setting.cacheFields, name)] Data.natural?
    number "max_entries" 1000 = some (cache.of settings).limit ∧
      number "ttl_seconds" 3600 = some (cache.of settings).lifetimeSeconds := by
  simp only [ofData?, Option.bind_eq_bind, Option.bind_eq_some_iff, Option.pure_def,
    Option.some.injEq] at read
  obtain ⟨fields, isRecord, modules, isModules, metadata, isMetadata, decompiler, isDecompiler,
    rfl⟩ := read
  have each {settings : CacheSettings}
      (found : fields.withDefault cache.key {} (CacheSettings.ofData? true) = some settings) :
      _ ∧ _ :=
    ⟨Data.Fields.valueAt_of_withDefault CacheSettings.limit isRecord found
        fun read => (CacheSettings.valueAt_of_ofData? read).1,
      Data.Fields.valueAt_of_withDefault CacheSettings.lifetimeSeconds isRecord found
        fun read => (CacheSettings.valueAt_of_ofData? read).2⟩
  cases cache with
  | modules => exact each isModules
  | classMetadata => exact each isMetadata
  | decompiler => exact each isDecompiler

/-- A settings file gives each setting the value that stands in it, or else the default. -/
theorem Setting.of_ofData? {data : Data} {settings : Settings}
    (read : Settings.ofData? true data = some settings) (setting : Setting) :
    (setting.inFile data).getD (some setting.default) = some (setting.of settings) := by
  simp only [Settings.ofData?, Option.bind_eq_bind, Option.bind_eq_some_iff, Option.pure_def,
    Option.some.injEq] at read
  obtain ⟨fields, isRecord, build, isBuild, caches, isCaches, limit, isLimit, log, isLog, rfl⟩ :=
    read
  cases setting with
  | executable =>
      exact Data.Fields.valueAt_of_withDefault BuildSettings.executable isRecord isBuild
        fun read => (BuildSettings.valueAt_of_ofData? read).1
  | settingsFile =>
      exact Data.Fields.valueAt_of_withDefault BuildSettings.settingsFile isRecord isBuild
        fun read => (BuildSettings.valueAt_of_ofData? read).2.1
  | localRepository =>
      exact Data.Fields.valueAt_of_withDefault BuildSettings.localRepository isRecord isBuild
        fun read => (BuildSettings.valueAt_of_ofData? read).2.2.1
  | offline =>
      exact Data.Fields.valueAt_of_withDefault BuildSettings.offline isRecord isBuild
        fun read => (BuildSettings.valueAt_of_ofData? read).2.2.2.1
  | updateSnapshots =>
      exact Data.Fields.valueAt_of_withDefault BuildSettings.updateSnapshots isRecord isBuild
        fun read => (BuildSettings.valueAt_of_ofData? read).2.2.2.2.1
  | failFast =>
      exact Data.Fields.valueAt_of_withDefault BuildSettings.failFast isRecord isBuild
        fun read => (BuildSettings.valueAt_of_ofData? read).2.2.2.2.2.1
  | timeout =>
      exact Data.Fields.valueAt_of_withDefault BuildSettings.timeoutSeconds isRecord isBuild
        fun read => (BuildSettings.valueAt_of_ofData? read).2.2.2.2.2.2
  | level =>
      exact Data.Fields.valueAt_of_withDefault LogSettings.level isRecord isLog
        fun read => (LogSettings.valueAt_of_ofData? read).1
  | asRecords =>
      exact Data.Fields.valueAt_of_withDefault LogSettings.asRecords isRecord isLog
        fun read => (LogSettings.valueAt_of_ofData? read).2
  | scanLimit =>
      apply Data.Fields.valueAt_of_withDefault id isRecord isLimit
      intro data limit read
      obtain ⟨inner, isInner, found⟩ := Option.bind_eq_some_iff.mp read
      exact Data.Fields.valueAt_of_leaf isInner found
  | cacheLimit cache =>
      rw [← of_default (.cacheLimit cache)]
      apply Data.Fields.valueAt_of_withDefault (fun caches => (cache.of caches).limit) isRecord
        isCaches
      intro data caches read
      cases cache <;> exact (CachesSettings.valueAt_of_ofData? read _).1
  | cacheLifetime cache =>
      rw [← of_default (.cacheLifetime cache)]
      apply Data.Fields.valueAt_of_withDefault (fun caches => (cache.of caches).lifetimeSeconds)
        isRecord isCaches
      intro data caches read
      cases cache <;> exact (CachesSettings.valueAt_of_ofData? read _).2

end ClassAtlas
