import ClassAtlas.Program
import ClassAtlas.Proofs.Settings.Sources
import Mathlib.Data.List.Basic

/-!
# Which source of settings wins

A setting may be given by a switch of the command line, by a variable of the environment and in
the settings file.  The first of these that gives it decides (`Program.settings_precedence`).  The
environment and the command line are layers of overrides, and what such a layer says about a
setting is what the variable or the switch says, as it is read
(`Setting.inEnvironment_eq`, `Setting.inArguments_eq`).
-/

namespace ClassAtlas

/-! ## The environment -/

namespace Setting

/-- The variable that gives a setting, if there is one. -/
def variableName? : Setting → Option String
  | .executable => "JLENS_MAVEN_EXECUTABLE"
  | .settingsFile => "JLENS_MAVEN_SETTINGS"
  | .localRepository => "JLENS_LOCAL_REPOSITORY"
  | .offline => "JLENS_OFFLINE"
  | .timeout => "JLENS_MAVEN_TIMEOUT"
  | .level => "JLENS_LOG_LEVEL"
  | .asRecords => "JLENS_LOG_JSON"
  | .scanLimit => "JLENS_MAX_CONCURRENT_ARCHIVES"
  | .updateSnapshots | .failFast | .cacheLimit _ | .cacheLifetime _ => none

/-- The flag that a text means. -/
def flag? (text : String) : Option Bool :=
  let word := Text.lowered (Text.trimmed text)
  if word ∈ Settings.settingWords then some true
  else if word ∈ Settings.clearingWords then some false
  else none

/-- The value that the text of a variable means.  A blank path is one that is missing. -/
def ofVariable? : (setting : Setting) → String → Option setting.Value
  | .executable, text | .settingsFile, text | .localRepository, text =>
      some (if Text.isBlankString text then none else some (⟨Text.trimmed text⟩ : Path))
  | .offline, text | .updateSnapshots, text | .failFast, text | .asRecords, text => flag? text
  | .level, text => (LogLevel.parse text).toOption
  | .timeout, text | .scanLimit, text | .cacheLimit _, text | .cacheLifetime _, text =>
      (Text.numeralBelow Text.wordBound (Text.trim text.toList)).toOption

/-- What the environment says about a setting: nothing, or the value of its variable, as it is
read. -/
def inEnvironment (lookup : String → Option String) (setting : Setting) :
    Option (Option setting.Value) :=
  (setting.variableName?.bind lookup).map setting.ofVariable?

end Setting

namespace Settings

theorem flag?_of_flagOfVariable {name text : String} {flag : Bool}
    (accepted : flagOfVariable name text = .ok flag) : Setting.flag? text = some flag := by
  simp only [flagOfVariable, List.contains_iff_mem] at accepted
  rw [Setting.flag?]
  split at accepted
  · rename_i isSet
    rw [if_pos isSet, Except.ok.inj accepted]
  · rename_i notSet
    rw [if_neg notSet]
    split at accepted
    · rename_i isClear
      rw [if_pos isClear, Except.ok.inj accepted]
    · cases accepted

theorem number?_of_numberOfVariable {name text : String} {number : Nat}
    (accepted : numberOfVariable name text = .ok number) :
    (Text.numeralBelow Text.wordBound (Text.trim text.toList)).toOption = some number := by
  rw [numberOfVariable] at accepted
  split at accepted
  · rename_i read
    rw [read, Except.ok.inj accepted]
    rfl
  · cases accepted

theorem level?_of_levelOfText {text : String} {level : LogLevel}
    (accepted : levelOfText text = .ok level) : (LogLevel.parse text).toOption = some level := by
  rw [levelOfText] at accepted
  split at accepted
  · rename_i read
    rw [read, Except.ok.inj accepted]
    rfl
  · cases accepted

/-- A variable that is accepted says what it means. -/
theorem map_of_ofVariable {α : Type} {lookup : String → Option String} {name : String}
    {read : String → String → Except Failure α} {meaning : String → Option α}
    {said : Option α} (accepted : ofVariable lookup name read = .ok said)
    (means : ∀ {text value}, read name text = .ok value → meaning text = some value) :
    (lookup name).map meaning = said.map some := by
  rw [ofVariable] at accepted
  split at accepted
  · rename_i text given
    rw [given]
    cases isRead : read name text with
    | ok value =>
        rw [isRead] at accepted
        rw [← Except.ok.inj accepted]
        exact congrArg some (means isRead)
    | error fault =>
        rw [isRead] at accepted
        cases accepted
  · rename_i notGiven
    rw [notGiven, ← Except.ok.inj accepted]
    rfl

/-- A calculation that succeeds has succeeded in each step. -/
theorem exists_of_bind {ε α β : Type} {first : Except ε α} {next : α → Except ε β} {result : β}
    (succeeds : first >>= next = .ok result) :
    ∃ value, first = .ok value ∧ next value = .ok result := by
  cases first with
  | ok value => exact ⟨value, rfl, succeeds⟩
  | error fault => cases succeeds

end Settings

/-- The layer of the environment says about each setting what its variable says. -/
theorem Setting.inEnvironment_eq {lookup : String → Option String} {layer : Settings.Layer}
    (accepted : Settings.Layer.ofEnvironment lookup = .ok layer) (setting : Setting) :
    setting.inEnvironment lookup = (setting.inLayer layer).map some := by
  unfold Settings.Layer.ofEnvironment at accepted
  obtain ⟨offline, isOffline, accepted⟩ := Settings.exists_of_bind accepted
  obtain ⟨timeout, isTimeout, accepted⟩ := Settings.exists_of_bind accepted
  obtain ⟨limit, isLimit, accepted⟩ := Settings.exists_of_bind accepted
  obtain ⟨level, isLevel, accepted⟩ := Settings.exists_of_bind accepted
  obtain ⟨asRecords, isAsRecords, accepted⟩ := Settings.exists_of_bind accepted
  obtain rfl := Except.ok.inj accepted
  have path (name : String) : (lookup name).map (some ∘ Settings.pathOfVariable) =
      ((lookup name).map Settings.pathOfVariable).map some :=
    (Option.map_map _ _ _).symm
  cases setting with
  | executable => exact path "JLENS_MAVEN_EXECUTABLE"
  | settingsFile => exact path "JLENS_MAVEN_SETTINGS"
  | localRepository => exact path "JLENS_LOCAL_REPOSITORY"
  | offline => exact Settings.map_of_ofVariable isOffline Settings.flag?_of_flagOfVariable
  | timeout => exact Settings.map_of_ofVariable isTimeout Settings.number?_of_numberOfVariable
  | scanLimit => exact Settings.map_of_ofVariable isLimit Settings.number?_of_numberOfVariable
  | level => exact Settings.map_of_ofVariable isLevel Settings.level?_of_levelOfText
  | asRecords => exact Settings.map_of_ofVariable isAsRecords Settings.flag?_of_flagOfVariable
  | updateSnapshots | failFast | cacheLimit | cacheLifetime => rfl

/-! ## The command line -/

namespace Setting
open CommandLine

/-- What arguments say about a setting: nothing, or the value of its switch, as it is read.  A
flag can only be set. -/
def inArguments (arguments : List Argument) : (setting : Setting) → Option (Option setting.Value)
  | .executable => (values "mvn" arguments).head?.map fun text => (path? text).map some
  | .localRepository =>
      (values "local-repository" arguments).head?.map fun text => (path? text).map some
  | .level =>
      (values "log-level" arguments).head?.map fun text => (LogLevel.parse text).toOption
  | .offline => if .flag "offline" ∈ arguments then some (some true) else none
  | .asRecords => if .flag "log-json" ∈ arguments then some (some true) else none
  | _ => none

end Setting

namespace CommandLine

/-- A switch that is understood says what its value means. -/
theorem map_of_value? {α : Type} {name : String} {read : String → Option α}
    {arguments : List Argument} {said : Option α}
    (understood : value? name read arguments = some said) :
    (values name arguments).head?.map read = said.map some := by
  rw [value?] at understood
  split at understood
  · rename_i none
    rw [none, ← Option.some.inj understood]
    rfl
  · rename_i text one
    obtain ⟨value, isValue, rfl⟩ := Option.map_eq_some_iff.mp understood
    rw [one]
    exact congrArg some isValue
  · cases understood

/-- A flag that is understood is set when it is given. -/
theorem whenSet_of_isSet? {name : String} {arguments : List Argument} {flag : Bool}
    (understood : isSet? name arguments = some flag) :
    (if .flag name ∈ arguments then some (some true) else none) =
      (Common.whenSet flag).map some := by
  rw [isSet?] at understood
  split at understood
  · rename_i absent
    rw [if_neg (List.count_eq_zero.mp absent), ← Option.some.inj understood]
    rfl
  · rename_i one
    have given : Argument.flag name ∈ arguments := by
      apply List.count_pos_iff.mp
      rw [one]
      exact Nat.zero_lt_one
    rw [if_pos given, ← Option.some.inj understood]
    rfl
  · cases understood

end CommandLine

/-- The layer of the common switches among arguments says about each setting what its switch
says. -/
theorem Setting.inArguments_eq {arguments : List CommandLine.Argument}
    {common : CommandLine.Common}
    (understood : CommandLine.Common.ofArguments? arguments = some common) (setting : Setting) :
    setting.inArguments arguments = (setting.inLayer common.layer).map some := by
  simp only [CommandLine.Common.ofArguments?, Option.bind_eq_bind, Option.bind_eq_some_iff,
    Option.pure_def, Option.some.injEq] at understood
  obtain ⟨file, isFile, level, isLevel, asRecords, isAsRecords, executable, isExecutable,
    repository, isRepository, offline, isOffline, rfl⟩ := understood
  have path {name : String} {said : Option Path}
      (isPath : CommandLine.value? name CommandLine.path? arguments = some said) :
      (CommandLine.values name arguments).head?.map
        (fun text => (CommandLine.path? text).map some) = (said.map some).map some :=
    calc (CommandLine.values name arguments).head?.map
          (fun text => (CommandLine.path? text).map some)
      _ = ((CommandLine.values name arguments).head?.map CommandLine.path?).map (.map some) :=
        (Option.map_map (Option.map some) CommandLine.path? _).symm
      _ = (said.map some).map (.map some) := by rw [CommandLine.map_of_value? isPath]
      _ = (said.map some).map some := by cases said <;> rfl
  cases setting with
  | executable => exact path isExecutable
  | localRepository => exact path isRepository
  | level => exact CommandLine.map_of_value? isLevel
  | offline => exact CommandLine.whenSet_of_isSet? isOffline
  | asRecords => exact CommandLine.whenSet_of_isSet? isAsRecords
  | settingsFile | updateSnapshots | failFast | timeout | scanLimit | cacheLimit | cacheLifetime =>
      rfl

namespace CommandLine

/-- A switch before the name of a command counts where none after it says anything. -/
theorem inLayer_withOuter (inner outer : Common) (setting : Setting) :
    setting.inLayer (inner.withOuter outer).layer =
      (setting.inLayer inner.layer).or (setting.inLayer outer.layer) := by
  have flag (inside outside : Bool) : Common.whenSet (inside || outside) =
      (Common.whenSet inside).or (Common.whenSet outside) := by
    cases inside <;> rfl
  have path (inside outside : Option Path) : (inside.orElse fun _ => outside).map some =
      (inside.map some).or (outside.map some) := by
    cases inside <;> rfl
  cases setting with
  | executable => exact path inner.executable outer.executable
  | localRepository => exact path inner.localRepository outer.localRepository
  | level => exact Option.orElse_eq_or
  | offline => exact flag inner.offline outer.offline
  | asRecords => exact flag inner.logsRecords outer.logsRecords
  | settingsFile | updateSnapshots | failFast | timeout | scanLimit | cacheLimit | cacheLifetime =>
      rfl

/-- The arguments of a command line before the name of the command and those after it. -/
def ReadsAs (line : List String) (leading inner : List Argument) : Prop :=
  ∃ name rest, scanLeading Common.switches line = some (leading, name :: rest) ∧
    ∃ form ∈ forms, form.name = name ∧
      scan (Common.switches ++ form.switches) rest = some inner

/-- A command line that is understood gives the layer of its switches. -/
theorem readsAs_of_parse? {line : List String} {invocation : Invocation}
    (parsed : parse? line = some invocation) :
    ∃ leading inner outerCommon innerCommon, ReadsAs line leading inner ∧
      Common.ofArguments? leading = some outerCommon ∧
      Common.ofArguments? inner = some innerCommon ∧
      invocation.layer = (innerCommon.withOuter outerCommon).layer := by
  obtain ⟨⟨leading, rest⟩, isLeading, parsed⟩ := Option.bind_eq_some_iff.mp parsed
  cases rest with
  | nil => cases parsed
  | cons name rest =>
      simp only [Option.bind_eq_bind, Option.bind_eq_some_iff, Option.pure_def,
        Option.some.injEq] at parsed
      obtain ⟨form, isForm, inner, isInner, outerCommon, isOuter, innerCommon, isCommon,
        command, isCommand, rfl⟩ := parsed
      have named : form.name = name := by simpa using List.find?_some isForm
      exact ⟨leading, inner, outerCommon, innerCommon,
        ⟨name, rest, isLeading, form, List.mem_of_find?_eq_some isForm, named, isInner⟩,
        isOuter, isCommon, rfl⟩

/-- What a command line says about a setting.  The switches after the name of the command win. -/
def said (leading inner : List Argument) (setting : Setting) : Option (Option setting.Value) :=
  (setting.inArguments inner).or (setting.inArguments leading)

end CommandLine

/-! ## Precedence -/

namespace Settings

/-- The data in the settings file of a run, if there is one. -/
def fileData? (files : FileTree) (explicit : Option Path) (directory : Path) : Option Data :=
  (explicit.orElse fun _ => fileIn? files directory).bind fun path =>
    (files.readText path).toOption.bind Data.ofToml?

/-- What is loaded has for each setting what the file says, or else the default. -/
theorem of_load {files : FileTree} {explicit : Option Path} {directory : Path} {settings : Settings}
    (loaded : load files explicit directory = .ok settings) (setting : Setting) :
    ((fileData? files explicit directory).bind setting.inFile).getD (some setting.default) =
      some (setting.of settings) := by
  rw [load] at loaded
  rw [fileData?]
  split at loaded
  · rename_i noFile
    rw [noFile, ← Except.ok.inj loaded, setting.of_default]
    rfl
  · rename_i path isPath
    split at loaded
    · rename_i text isText
      rw [ofFile, ofToml?] at loaded
      split at loaded
      · rename_i read isRead
        obtain ⟨data, isData, read⟩ := Option.bind_eq_some_iff.mp isRead
        rw [isPath, ← Except.ok.inj loaded, ← Setting.of_ofData? read]
        simp only [Option.bind_some, isText, Except.toOption, isData]
      · cases loaded
    · cases loaded

end Settings

/-- In a layer over a layer, the first that says anything about a setting decides. -/
theorem Setting.of_withLayers_pair (settings : Settings) (lower upper : Settings.Layer)
    (setting : Setting) :
    setting.of (settings.withLayers [lower, upper]) =
      ((setting.inLayer upper).or (setting.inLayer lower)).getD (setting.of settings) := by
  rw [Settings.withLayers, List.foldl_cons, List.foldl_cons, List.foldl_nil, of_override,
    of_override]
  cases setting.inLayer upper <;> rfl

namespace Program

/-- The settings of a run.  The first of the command line, the environment and the settings file
that gives a setting decides, and a setting that none of them gives has its default.  Layers that
are applied together are layers that are applied one after another. -/
theorem settings_precedence :
    (∀ {surroundings : Surroundings} {line : List String} {invocation : CommandLine.Invocation}
        {environment : Settings.Layer} {file : Settings},
      CommandLine.parse? line = some invocation →
      Settings.Layer.ofEnvironment surroundings.environment = .ok environment →
      Settings.load surroundings.files invocation.settingsFile surroundings.directory = .ok file →
      ∃ effective leading inner,
        settings surroundings invocation = .ok effective ∧
        CommandLine.ReadsAs line leading inner ∧
        ∀ setting : Setting, some (setting.of effective) =
          ((CommandLine.said leading inner setting).or
            ((setting.inEnvironment surroundings.environment).or
              ((Settings.fileData? surroundings.files invocation.settingsFile
                surroundings.directory).bind setting.inFile))).getD (some setting.default)) ∧
    (∀ (settings : BuildSettings) (lower upper : List BuildSettings.Layer),
      settings.withLayers (lower ++ upper) = (settings.withLayers lower).withLayers upper) ∧
    (∀ (settings : LogSettings) (lower upper : List LogSettings.Layer),
      settings.withLayers (lower ++ upper) = (settings.withLayers lower).withLayers upper) ∧
    (∀ (settings : Settings) (lower upper : List Settings.Layer),
      settings.withLayers (lower ++ upper) = (settings.withLayers lower).withLayers upper) := by
  refine ⟨?_, fun _ _ _ => List.foldl_append, fun _ _ _ => List.foldl_append,
    fun _ _ _ => List.foldl_append⟩
  intro surroundings line invocation environment file parsed accepted loaded
  obtain ⟨leading, inner, outerCommon, innerCommon, reads, isOuter, isInner, layer⟩ :=
    CommandLine.readsAs_of_parse? parsed
  have isSettings : settings surroundings invocation =
      .ok (file.withLayers [environment, invocation.layer]) := by
    rw [settings, accepted, loaded]
    rfl
  refine ⟨_, leading, inner, isSettings, reads, ?_⟩
  intro setting
  have onLine : CommandLine.said leading inner setting =
      (setting.inLayer invocation.layer).map some := by
    rw [CommandLine.said, Setting.inArguments_eq isInner, Setting.inArguments_eq isOuter, layer,
      CommandLine.inLayer_withOuter, Option.map_or]
  rw [onLine, Setting.inEnvironment_eq accepted, ← Option.or_assoc, ← Option.map_or,
    Setting.of_withLayers_pair]
  cases (setting.inLayer invocation.layer).or (setting.inLayer environment) with
  | none => exact (Settings.of_load loaded setting).symm
  | some value => rfl

/-! A run in which each source gives something that the next one overrides. -/

namespace ThreeSources

def document : String :=
  "[maven]\nexecutable = \"/file/mvn\"\noffline = true\ntimeout_seconds = 7\n" ++
    "[logging]\nlevel = \"INFO\"\n"

def surroundings : Surroundings where
  files := .ofList ["work"] [(⟨"jlens.toml"⟩, .file { text := some document })]
  directory := ⟨"/work"⟩
  home := none
  environment := fun name => [("JLENS_MAVEN_EXECUTABLE", " "), ("JLENS_OFFLINE", "No"),
    ("JLENS_LOCAL_REPOSITORY", "/variable"), ("JLENS_LOG_LEVEL", "error")].lookup name

def line : List String := ["--local-repository", "/outer", "--offline", "module",
  "--local-repository=/inner"]

def invocation : CommandLine.Invocation where
  settingsFile := none
  layer := { build := { localRepository := some (some ⟨"/inner"⟩), offline := some true } }
  command := .describe {} false

def environment : Settings.Layer where
  build := { executable := some none, localRepository := some (some ⟨"/variable"⟩),
             offline := some false }
  log := { level := some .error }

def file : Settings where
  build := { executable := some ⟨"/file/mvn"⟩, offline := true, timeoutSeconds := 7 }
  log := { level := .info }

def effective : Settings where
  build := { localRepository := some ⟨"/inner"⟩, offline := true, timeoutSeconds := 7 }
  log := { level := .error }

end ThreeSources

open ThreeSources in
theorem settings_precedence_three_sources :
    settings surroundings invocation = .ok effective ∧
      ∃ leading inner, CommandLine.ReadsAs line leading inner ∧
        ∀ setting : Setting, some (setting.of effective) =
          ((CommandLine.said leading inner setting).or
            ((setting.inEnvironment surroundings.environment).or
              ((Settings.fileData? surroundings.files none surroundings.directory).bind
                setting.inFile))).getD (some setting.default) := by
  have parsed : CommandLine.parse? line = some invocation := by decide +kernel
  have accepted : Settings.Layer.ofEnvironment surroundings.environment = .ok environment := by
    decide +kernel
  have loaded : Settings.load surroundings.files invocation.settingsFile
      surroundings.directory = .ok file := by
    decide +kernel
  obtain ⟨found, leading, inner, isSettings, reads, each⟩ :=
    settings_precedence.1 parsed accepted loaded
  have same : settings surroundings invocation = .ok effective := by
    rw [settings, accepted, loaded]
    rfl
  obtain rfl := Except.ok.inj (isSettings.symm.trans same)
  exact ⟨same, leading, inner, reads, each⟩

end Program
end ClassAtlas
