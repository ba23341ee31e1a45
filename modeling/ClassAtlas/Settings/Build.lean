import ClassAtlas.Data.Reading

/-!
# Settings of the build tool

Which build tool is used, if any, how it is called, and where the local repository
lies.  A layer overrides some of the settings: for each it says nothing or gives a
value, and for a path that value may be that there is none.
-/

namespace ClassAtlas

/-- Settings of the build tool and the local repository. -/
structure BuildSettings where
  /-- The tool that resolves modules, when it is not done by reading descriptors. -/
  executable : Option Path := none
  settingsFile : Option Path := none
  localRepository : Option Path := none
  offline : Bool := false
  updateSnapshots : Bool := false
  failFast : Bool := true
  timeoutSeconds : Nat := 300
  deriving DecidableEq, Repr

namespace BuildSettings

/-- Overrides of settings. -/
structure Layer where
  executable : Option (Option Path) := none
  settingsFile : Option (Option Path) := none
  localRepository : Option (Option Path) := none
  offline : Option Bool := none
  updateSnapshots : Option Bool := none
  failFast : Option Bool := none
  timeoutSeconds : Option Nat := none
  deriving DecidableEq, Repr

def Layer.isEmpty (layer : Layer) : Bool :=
  layer.executable.isNone && layer.settingsFile.isNone && layer.localRepository.isNone &&
    layer.offline.isNone && layer.updateSnapshots.isNone && layer.failFast.isNone &&
    layer.timeoutSeconds.isNone

def override (settings : BuildSettings) (layer : Layer) : BuildSettings where
  executable := layer.executable.getD settings.executable
  settingsFile := layer.settingsFile.getD settings.settingsFile
  localRepository := layer.localRepository.getD settings.localRepository
  offline := layer.offline.getD settings.offline
  updateSnapshots := layer.updateSnapshots.getD settings.updateSnapshots
  failFast := layer.failFast.getD settings.failFast
  timeoutSeconds := layer.timeoutSeconds.getD settings.timeoutSeconds

/-- The settings with what several layers say; a later layer wins. -/
def withLayers (settings : BuildSettings) (layers : List Layer) : BuildSettings :=
  layers.foldl override settings

/-- The repository of a user, below the home directory. -/
def repositoryBelow (home : Path) : Path :=
  (home.join ".m2").join "repository"

/-- The local repository: the one that is set, else the one of the user. -/
def effectiveLocalRepository (settings : BuildSettings) (home : Option Path) : Option Path :=
  settings.localRepository.orElse fun _ => home.map repositoryBelow

def ofData? (mayGoOn : Bool) (data : Data) : Option BuildSettings := do
  let fields ← data.fields? ["executable", "settings_file", "local_repository", "offline",
    "update_snapshots", "fail_fast", "timeout_seconds"] mayGoOn
  let default : BuildSettings := {}
  let path (name : String) : Option (Option Path) :=
    fields.withDefault name none (Data.optional Path.ofData?)
  return {
    executable := ← path "executable"
    settingsFile := ← path "settings_file"
    localRepository := ← path "local_repository"
    offline := ← fields.withDefault "offline" default.offline Data.boolean?
    updateSnapshots := ←
      fields.withDefault "update_snapshots" default.updateSnapshots Data.boolean?
    failFast := ← fields.withDefault "fail_fast" default.failFast Data.boolean?
    timeoutSeconds := ←
      fields.withDefault "timeout_seconds" default.timeoutSeconds Data.natural? }

def record (settings : BuildSettings) : Data :=
  .table [("executable", .ofOption Path.record settings.executable),
    ("settings_file", .ofOption Path.record settings.settingsFile),
    ("local_repository", .ofOption Path.record settings.localRepository),
    ("offline", .boolean settings.offline),
    ("update_snapshots", .boolean settings.updateSnapshots),
    ("fail_fast", .boolean settings.failFast),
    ("timeout_seconds", .natural settings.timeoutSeconds)]

end BuildSettings
end ClassAtlas
