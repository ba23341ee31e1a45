import ClassAtlas.ClassIndex.Search
import ClassAtlas.CommandLine.Argument
import ClassAtlas.Settings.Basic

/-!
# Commands

What a command line asks for: a command, the settings file, and overrides of settings.
Common switches may stand before the name of the command and after it; what stands
after it wins.
-/

namespace ClassAtlas

/-- Which module a command is about, and how it is resolved. -/
structure ModuleChoice where
  /-- The descriptor; it is searched for when none is given. -/
  descriptor : Option Path := none
  scope : Scope := .compile
  profiles : List String := []
  /-- No build tool is used. -/
  direct : Bool := false
  deriving DecidableEq, Repr

/-- What can be asked for.  The outcome is printed as text or as a record. -/
inductive Command where
  | describe (choice : ModuleChoice) (asRecord : Bool)
  | listDependencies (choice : ModuleChoice) (only : Option Scope) (missing asRecord : Bool)
  | index (choice : ModuleChoice) (asRecord : Bool)
  | search (choice : ModuleChoice) (pattern : String) (kind : SearchKind) (limit : Nat)
      (asRecord : Bool)
  | resolve (choice : ModuleChoice) (names imports : List String) (package : Option String)
      (source : Option Path) (asRecord : Bool)
  deriving DecidableEq, Repr

namespace CommandLine

structure Common where
  settingsFile : Option Path := none
  level : Option LogLevel := none
  logsRecords : Bool := false
  executable : Option Path := none
  localRepository : Option Path := none
  offline : Bool := false
  deriving DecidableEq, Repr

namespace Common

def switches : List Switch :=
  [{ name := "config" }, { name := "log-level" }, .flag "log-json", { name := "mvn" },
    { name := "local-repository" }, .flag "offline"]

def ofArguments? (arguments : List Argument) : Option Common := do
  return {
    settingsFile := ← value? "config" path? arguments
    level := ← value? "log-level" (fun text => (LogLevel.parse text).toOption) arguments
    logsRecords := ← isSet? "log-json" arguments
    executable := ← value? "mvn" path? arguments
    localRepository := ← value? "local-repository" path? arguments
    offline := ← isSet? "offline" arguments }

/-- The switches after the name of a command together with those before it. -/
def withOuter (inner outer : Common) : Common where
  settingsFile := inner.settingsFile.orElse fun _ => outer.settingsFile
  level := inner.level.orElse fun _ => outer.level
  logsRecords := inner.logsRecords || outer.logsRecords
  executable := inner.executable.orElse fun _ => outer.executable
  localRepository := inner.localRepository.orElse fun _ => outer.localRepository
  offline := inner.offline || outer.offline

/-- A flag as an override: it can set but not clear. -/
def whenSet (flag : Bool) : Option Bool :=
  if flag then some true else none

/-- The overrides of settings that the switches say. -/
def layer (common : Common) : Settings.Layer where
  build :=
    { executable := common.executable.map some
      localRepository := common.localRepository.map some
      offline := whenSet common.offline }
  log := { level := common.level, asRecords := whenSet common.logsRecords }

end Common

/-- A command line that was understood. -/
structure Invocation where
  settingsFile : Option Path
  layer : Settings.Layer
  command : Command
  deriving DecidableEq, Repr

/-- The switch with which a command prints a record. -/
def recordSwitch : Switch := .flag "json"

def choiceSwitches : List Switch :=
  [{ name := "pom", letter := some 'f' }, { name := "scope" },
    { name := "profile", letter := some 'P' }, .flag "direct"]

def scope? (text : String) : Option Scope :=
  (Scope.parse text).toOption

/-- The choice of a module among arguments. -/
def choice? (arguments : List Argument) : Option ModuleChoice := do
  return {
    descriptor := ← value? "pom" path? arguments
    scope := (← value? "scope" scope? arguments).getD .compile
    profiles := (values "profile" arguments).flatMap fun text =>
      (text.toList.splitOn ',').map String.ofList
    direct := ← isSet? "direct" arguments }

/-- The number of hits that a search shows when no other is asked for. -/
def defaultLimit : Nat := 50

def number? (text : String) : Option Nat :=
  (Text.numeralBelow Text.wordBound text.toList).toOption

/-- A kind of command: its name, its switches besides the common ones, and how it is read
from its arguments. -/
structure CommandForm where
  name : String
  switches : List Switch
  read : List Argument → Option Command

/-- A command without words. -/
def withoutWords (arguments : List Argument) (command : Command) : Option Command :=
  if (words arguments).isEmpty then some command else none

def describeForm : CommandForm where
  name := "module"
  switches := choiceSwitches ++ [recordSwitch]
  read arguments := do
    withoutWords arguments
      (.describe (← choice? arguments) (← isSet? recordSwitch.name arguments))

def dependenciesForm : CommandForm where
  name := "deps"
  switches := choiceSwitches ++ [{ name := "only" }, .flag "missing", recordSwitch]
  read arguments := do
    withoutWords arguments
      (.listDependencies (← choice? arguments) (← value? "only" scope? arguments)
        (← isSet? "missing" arguments) (← isSet? recordSwitch.name arguments))

def indexForm : CommandForm where
  name := "index"
  switches := choiceSwitches ++ [recordSwitch]
  read arguments := do
    withoutWords arguments
      (.index (← choice? arguments) (← isSet? recordSwitch.name arguments))

def searchForm : CommandForm where
  name := "search"
  switches := choiceSwitches ++ [{ name := "type" }, { name := "limit" }, recordSwitch]
  read arguments := do
    let choice ← choice? arguments
    let kind ← value? "type" (fun text => (SearchKind.parse text).toOption) arguments
    let limit ← value? "limit" number? arguments
    let asRecord ← isSet? recordSwitch.name arguments
    match words arguments with
    | [pattern] =>
        some (.search choice pattern (kind.getD .wildcard) (limit.getD defaultLimit) asRecord)
    | _ => none

def resolveForm : CommandForm where
  name := "resolve-class"
  switches := choiceSwitches ++
    [{ name := "import" }, { name := "package" }, { name := "source" }, recordSwitch]
  read arguments := do
    let choice ← choice? arguments
    let package ← value? "package" some arguments
    let source ← value? "source" path? arguments
    let asRecord ← isSet? recordSwitch.name arguments
    match words arguments with
    | [] => none
    | names =>
        some (.resolve choice names (values "import" arguments) package source asRecord)

def forms : List CommandForm :=
  [describeForm, dependenciesForm, indexForm, searchForm, resolveForm]

/-- Understands a command line, unless it is not one. -/
def parse? (arguments : List String) : Option Invocation := do
  let (leading, rest) ← scanLeading Common.switches arguments
  match rest with
  | [] => none
  | name :: rest =>
      let form ← forms.find? (·.name == name)
      let arguments ← scan (Common.switches ++ form.switches) rest
      let outer ← Common.ofArguments? leading
      let inner ← Common.ofArguments? arguments
      let common := inner.withOuter outer
      return {
        settingsFile := common.settingsFile
        layer := common.layer
        command := ← form.read arguments }

end CommandLine
end ClassAtlas
