import ClassAtlas.FileTree
import ClassAtlas.Settings.Build
import ClassAtlas.Settings.Cache
import ClassAtlas.Settings.Logging
import ClassAtlas.Text.Ascii
import ClassAtlas.Toml.Document

/-!
# Settings

All settings of a run.  They come from a file in TOML, if there is one, and are then
overridden by layers: first the environment, then the command line.
-/

namespace ClassAtlas

/-- The settings of a run. -/
structure Settings where
  build : BuildSettings := {}
  caches : CachesSettings := {}
  /-- How many scans of an indexing pass may run side by side. -/
  scanLimit : Nat := 8
  log : LogSettings := {}
  deriving DecidableEq, Repr

namespace Settings

/-- A value that cannot be used for a setting. -/
inductive ValueFault where
  | notBoolean
  | notNumeral (fault : Text.NumeralFault)
  deriving DecidableEq, Repr

/-- The words for what is wrong with a value. -/
def ValueFault.message : ValueFault → String
  | .notBoolean => "expected a boolean"
  | .notNumeral fault => fault.message

/-- Why there are no settings. -/
inductive Failure where
  | unreadable (path : Path) (cause : ReadError)
  /-- The file is no TOML document, or a setting in it has an impossible value. -/
  | malformed (path : Path)
  | badVariable (name value : String) (fault : ValueFault)
  | unknownLevel (unknown : LogLevel.Unknown)
  deriving DecidableEq, Repr

def Failure.message : Failure → String
  | .unreadable path cause => "Failed to read " ++ path.text ++ ": " ++ cause.message
  | .malformed path => "Failed to parse " ++ path.text
  | .badVariable name value fault =>
      "Invalid value '" ++ value ++ "' for " ++ name ++ ": " ++ fault.message
  | .unknownLevel unknown => unknown.message

/-! ## The file -/

/-- The limit of scans, given as a record. -/
def scanLimitOfData? (mayGoOn : Bool) (data : Data) : Option Nat := do
  let fields ← data.fields? ["max_concurrent_archives"] mayGoOn
  fields.withDefault "max_concurrent_archives" ({} : Settings).scanLimit Data.natural?

/-- Settings that are given as a record. -/
def ofData? (mayGoOn : Bool) (data : Data) : Option Settings := do
  let fields ← data.fields? ["maven", "cache", "index", "logging"] mayGoOn
  let default : Settings := {}
  return {
    build := ← fields.withDefault "maven" default.build (BuildSettings.ofData? mayGoOn)
    caches := ← fields.withDefault "cache" default.caches (CachesSettings.ofData? mayGoOn)
    scanLimit := ← fields.withDefault "index" default.scanLimit (scanLimitOfData? mayGoOn)
    log := ← fields.withDefault "logging" default.log (LogSettings.ofData? mayGoOn) }

/-- The settings in a TOML document.  An array in the place of a record may go on after
the last field. -/
def ofToml? (text : String) : Option Settings :=
  (Data.ofToml? text).bind (ofData? true)

def ofFile (path : Path) (text : String) : Except Failure Settings :=
  match ofToml? text with
  | some settings => .ok settings
  | none => .error (.malformed path)

/-- The name of the settings file that is used when no other is asked for. -/
def fileName : String := "jlens.toml"

/-- The settings file in a directory. -/
def fileIn? (files : FileTree) (directory : Path) : Option Path :=
  (some (directory.join fileName)).filter files.isFile

/-- Reads the settings file that is asked for, or the one in the directory if there is
one. -/
def load (files : FileTree) (explicit : Option Path) (directory : Path) :
    Except Failure Settings :=
  match explicit.orElse fun _ => fileIn? files directory with
  | none => .ok {}
  | some path =>
      match files.readText path with
      | .ok text => ofFile path text
      | .error cause => .error (.unreadable path cause)

def record (settings : Settings) : Data :=
  .table [("maven", settings.build.record), ("cache", settings.caches.record),
    ("index", .table [("max_concurrent_archives", .natural settings.scanLimit)]),
    ("logging", settings.log.record)]

/-! ## Layers -/

/-- Overrides of settings. -/
structure Layer where
  build : BuildSettings.Layer := {}
  log : LogSettings.Layer := {}
  scanLimit : Option Nat := none
  deriving DecidableEq, Repr

/-- The settings with what a layer says.  Parts about which it says nothing are kept. -/
def override (settings : Settings) (layer : Layer) : Settings :=
  { settings with
    build := if layer.build.isEmpty then settings.build
      else settings.build.withLayers [layer.build]
    log := if layer.log.isEmpty then settings.log else settings.log.withLayers [layer.log]
    scanLimit := layer.scanLimit.getD settings.scanLimit }

/-- The settings with what several layers say; a later layer wins. -/
def withLayers (settings : Settings) (layers : List Layer) : Settings :=
  layers.foldl override settings

end Settings
end ClassAtlas
