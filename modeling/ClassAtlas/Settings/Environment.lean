import ClassAtlas.Settings.Basic

/-!
# Settings from the environment

The variables that override settings.  A blank path takes a setting away, and a blank
flag sets it.  The variables are read in a fixed order, and the first that has an
impossible value ends the reading.
-/

namespace ClassAtlas.Settings

/-- The path that a variable gives; there is none when its value is blank. -/
def pathOfVariable (value : String) : Option Path :=
  if Text.isBlankString value then none else some ⟨Text.trimmed value⟩

def settingWords : List String := ["", "1", "true", "yes", "on"]

def clearingWords : List String := ["0", "false", "no", "off"]

def flagOfVariable (name value : String) : Except Failure Bool :=
  let word := Text.lowered (Text.trimmed value)
  if settingWords.contains word then .ok true
  else if clearingWords.contains word then .ok false
  else .error (.badVariable name value .notBoolean)

def numberOfVariable (name value : String) : Except Failure Nat :=
  match Text.numeralBelow Text.wordBound (Text.trim value.toList) with
  | .ok number => .ok number
  | .error fault => .error (.badVariable name value (.notNumeral fault))

def levelOfText (value : String) : Except Failure LogLevel :=
  match LogLevel.parse value with
  | .ok level => .ok level
  | .error unknown => .error (.unknownLevel unknown)

/-- What a variable gives, unless it is not set. -/
def ofVariable {β : Type} (lookup : String → Option String) (name : String)
    (read : String → String → Except Failure β) : Except Failure (Option β) :=
  match lookup name with
  | some value => (read name value).map some
  | none => .ok none

/-- The overrides that the environment gives. -/
def Layer.ofEnvironment (lookup : String → Option String) : Except Failure Layer := do
  let offline ← ofVariable lookup "JLENS_OFFLINE" flagOfVariable
  let timeout ← ofVariable lookup "JLENS_MAVEN_TIMEOUT" numberOfVariable
  let scanLimit ← ofVariable lookup "JLENS_MAX_CONCURRENT_ARCHIVES" numberOfVariable
  let level ← ofVariable lookup "JLENS_LOG_LEVEL" fun _ => levelOfText
  let asRecords ← ofVariable lookup "JLENS_LOG_JSON" flagOfVariable
  return {
    build := {
      executable := (lookup "JLENS_MAVEN_EXECUTABLE").map pathOfVariable
      settingsFile := (lookup "JLENS_MAVEN_SETTINGS").map pathOfVariable
      localRepository := (lookup "JLENS_LOCAL_REPOSITORY").map pathOfVariable
      offline
      timeoutSeconds := timeout }
    log := { level, asRecords }
    scanLimit }

end ClassAtlas.Settings
