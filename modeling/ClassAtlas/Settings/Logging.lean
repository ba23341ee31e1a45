import ClassAtlas.Data.Reading

/-!
# Settings of the log

How much is logged and in which format.
-/

namespace ClassAtlas

/-- How important a message has to be to be logged. -/
inductive LogLevel where
  | trace
  | debug
  | info
  | warn
  | error
  deriving DecidableEq, Repr, Inhabited

namespace LogLevel

/-- All levels, in the order in which they are listed to the user. -/
def all : List LogLevel := [.trace, .debug, .info, .warn, .error]

/-- The name of a level in small letters. -/
def directive : LogLevel → String
  | .trace => "trace"
  | .debug => "debug"
  | .info => "info"
  | .warn => "warn"
  | .error => "error"

def name : LogLevel → String
  | .trace => "TRACE"
  | .debug => "DEBUG"
  | .info => "INFO"
  | .warn => "WARN"
  | .error => "ERROR"

/-- A word that names no level, as it is left after trimming and lowering. -/
structure Unknown where
  invalid : String
  deriving DecidableEq, Repr

def Unknown.message (unknown : Unknown) : String :=
  "Unknown log level: " ++ unknown.invalid ++ ". Available: " ++
    ", ".intercalate (all.map name)

/-- The level that a word in small letters means. -/
def ofWord? (word : String) : Option LogLevel :=
  if word == "warning" then some .warn else all.find? (·.directive == word)

/-- Reads a level; blanks around it and the case of its letters do not count. -/
def parse (text : String) : Except Unknown LogLevel :=
  let word := Text.lowered (Text.trimmed text)
  match ofWord? word with
  | some level => .ok level
  | none => .error ⟨word⟩

def ofData? (data : Data) : Option LogLevel :=
  data.text?.bind fun text => (parse text).toOption

end LogLevel

structure LogSettings where
  level : LogLevel := .warn
  /-- Messages are logged as records instead of lines. -/
  asRecords : Bool := false
  deriving DecidableEq, Repr

namespace LogSettings

structure Layer where
  level : Option LogLevel := none
  asRecords : Option Bool := none
  deriving DecidableEq, Repr

def Layer.isEmpty (layer : Layer) : Bool :=
  layer.level.isNone && layer.asRecords.isNone

def override (settings : LogSettings) (layer : Layer) : LogSettings where
  level := layer.level.getD settings.level
  asRecords := layer.asRecords.getD settings.asRecords

/-- The settings with what several layers say; a later layer wins. -/
def withLayers (settings : LogSettings) (layers : List Layer) : LogSettings :=
  layers.foldl override settings

def ofData? (mayGoOn : Bool) (data : Data) : Option LogSettings := do
  let fields ← data.fields? ["level", "json"] mayGoOn
  let default : LogSettings := {}
  return {
    level := ← fields.withDefault "level" default.level LogLevel.ofData?
    asRecords := ← fields.withDefault "json" default.asRecords Data.boolean? }

def record (settings : LogSettings) : Data :=
  .table [("level", .text settings.level.name), ("json", .boolean settings.asRecords)]

end LogSettings
end ClassAtlas
