import ClassAtlas.Proofs.Descriptor.Resolution
import ClassAtlas.Resolver

/-!
# Where the two resolvers agree

Both resolvers draft a module from the request alone, and the identity that a build tool does
not report is read from the descriptor by both.  So the module of a build tool differs from the
one that the descriptor gives in the identity that was reported, in the dependencies that were
listed, and in what it takes from nowhere: packaging and child modules (`resolve_of_run`).
-/

namespace ClassAtlas

section Resolvers

variable {files : FileTree} {settings : BuildSettings} {request : Descriptor.Request}
variable {workingDirectory : Path} {text output : String} {module : Module}

/-! ## What a descriptor is resolved to -/

theorem filled_of_blank {default text : String} (blank : Text.isBlankString text = true) :
    filled default (some text) = default := by
  simp [filled, Option.filter, blank]

/-- What has been filled in is not filled in again. -/
theorem filled_filled (default : String) (text : Option String) :
    filled default (some (filled default text)) = filled default text := by
  by_cases blank : Text.isBlankString (filled default text) = true
  · rw [filled_of_blank blank]
    cases text with
    | none => rfl
    | some text =>
        by_cases blankText : Text.isBlankString text = true
        · exact (filled_of_blank blankText).symm
        · rw [filled_of_not_blank blankText] at blank
          exact absurd blank blankText
  · exact filled_of_not_blank blank

theorem filled_or_filled (default : String) (first second : Option String) :
    filled default (first.or (some (filled default second))) = filled default (first.or second) := by
  cases first with
  | some text => rfl
  | none => exact filled_filled default second

namespace Descriptor

/-- The module holds what follows from the request alone and what the descriptor states. -/
theorem exists_of_resolveText (resolves : resolveText workingDirectory request text = .ok module) :
    ∃ group artifact modules dependencies,
      (identityOfText text).group = some group ∧
      (identityOfText text).artifact = some artifact ∧
      module = { (request.draft workingDirectory).build with
        group, artifact, modules, dependencies
        version := filled unknownVersion (identityOfText text).version
        packaging := filled "jar" (identityOfText text).packaging } := by
  rw [resolveText] at resolves
  dsimp only at resolves
  split at resolves
  · rename_i group artifact isGroup isArtifact
    cases resolves
    let descriptor := (read text.toList).1
    refine ⟨group, artifact, descriptor.modules,
      resolveDependencies descriptor.seededProperties [] descriptor.dependencies,
      isGroup, isArtifact, ?_⟩
    have version : orWhenBlank unknownVersion ((identityOfText text).version.getD "") =
        filled unknownVersion (identityOfText text).version := orWhenBlank_getD _ rfl
    have packaging : orWhenBlank "jar" ((identityOfText text).packaging.getD "") =
        filled "jar" (identityOfText text).packaging := orWhenBlank_getD _ rfl
    rw [← version, ← packaging]
    rfl
  · cases resolves

/-- A descriptor that is resolved can be read. -/
theorem exists_of_resolveFile (resolves : resolveFile files request = .ok module) :
    files.isPresent request.descriptor = true ∧
      ∃ text, files.readText request.descriptor = .ok text ∧
        resolveText files.workingPath request text = .ok module := by
  rw [resolveFile] at resolves
  split at resolves
  · cases resolves
  · rename_i present
    split at resolves
    · rename_i text readable
      exact ⟨by simpa using present, text, readable, resolves⟩
    · cases resolves

end Descriptor

/-! ## What a build tool gives -/

/-- No part of an identity is reported. -/
structure Transcript.IsSilent (reported : Transcript) : Prop where
  group : reported.group = none
  artifact : reported.artifact = none
  version : reported.version = none

namespace BuildTool

/-- A run has an output exactly when the tool is found, ends in time, and ends well. -/
theorem run_eq_ok_iff {descriptor : Path} {arguments : List String} :
    run files settings descriptor arguments = .ok output ↔
      ∃ tool, start files (Descriptor.baseDirectoryOf files.workingPath descriptor)
          (executable settings) arguments = .ok tool ∧
        tool.endsWithin settings.timeoutSeconds = true ∧ tool.isKilled = false ∧
        tool.status = 0 ∧ printed tool arguments = output := by
  rw [run]
  cases started : start files (Descriptor.baseDirectoryOf files.workingPath descriptor)
      (executable settings) arguments with
  | error failure => simp
  | ok tool =>
      by_cases ends : tool.endsWithin settings.timeoutSeconds = true <;>
        by_cases survives : tool.isKilled = true <;>
          by_cases succeeds : tool.status = 0 <;> simp [ends, survives, succeeds]

/-- A run without an output is a failure of the tool. -/
theorem isToolFailure_of_run {descriptor : Path} {arguments : List String} {cause : ResolveError}
    (failed : run files settings descriptor arguments = .error cause) :
    cause.isToolFailure = true := by
  rw [run] at failed
  split at failed
  case h_1 =>
    cases failed
    rfl
  case h_2 tool started =>
    split at failed
    case isTrue late =>
      cases failed
      rfl
    case isFalse ends =>
      split at failed
      case isTrue isKilled =>
        cases failed
        rfl
      case isFalse survives =>
        split at failed
        case isTrue fails =>
          cases failed
          rfl
        case isFalse succeeds => cases failed

/-- What is printed by the tool that is run for a request. -/
def outputFor (files : FileTree) (settings : BuildSettings) (request : Descriptor.Request) :
    Except ResolveError String :=
  run files settings request.descriptor (arguments settings request.scope request.profiles)

/-- Each part of the identity is the reported one, else the one that is written.  The
descriptor is not even read when all three are reported. -/
theorem identity_of_readText {path : Path} (readable : files.readText path = .ok text)
    (reported : Transcript) :
    let written := Descriptor.identityOfText text
    identity files path reported = .ok
      ⟨reported.group.or written.group, reported.artifact.or written.artifact,
        reported.version.or written.version, none⟩ := by
  intro written
  obtain ⟨group, artifact, version, dependencies⟩ := reported
  rw [identity, readable]
  cases group <;> cases artifact <;> cases version <;> rfl

/-- A tool that has run for a descriptor that can be read gives a module. -/
theorem resolve_eq (present : files.isPresent request.descriptor = true)
    (readable : files.readText request.descriptor = .ok text)
    (runs : outputFor files settings request = .ok output) :
    let reported := Transcript.ofOutput output
    let written := Descriptor.identityOfText text
    resolve files settings request = .ok { (request.draft files.workingPath).build with
      group := (reported.group.or written.group).getD unknownVersion
      artifact := (reported.artifact.or written.artifact).getD unknownVersion
      version := filled unknownVersion (reported.version.or written.version)
      packaging := "jar"
      modules := []
      dependencies := reported.dependencies } := by
  intro reported written
  have identified := identity_of_readText readable (Transcript.ofOutput output)
  have version : orWhenBlank unknownVersion
      ((reported.version.or written.version).getD unknownVersion) =
        filled unknownVersion (reported.version.or written.version) := orWhenBlank_getD _ rfl
  rw [outputFor] at runs
  rw [← version, resolve, runs]
  dsimp only at identified
  simp only [present, bind, Except.bind, identified]
  rfl

/-- The module of a tool that has run. -/
theorem resolve_of_run (resolves : Descriptor.resolveFile files request = .ok module)
    (runs : outputFor files settings request = .ok output) :
    let reported := Transcript.ofOutput output
    resolve files settings request = .ok { module with
      group := reported.group.getD module.group
      artifact := reported.artifact.getD module.artifact
      version := filled unknownVersion (reported.version.or (some module.version))
      packaging := "jar"
      modules := []
      dependencies := reported.dependencies } := by
  intro reported
  obtain ⟨present, text, readable, states⟩ := Descriptor.exists_of_resolveFile resolves
  obtain ⟨group, artifact, modules, dependencies, isGroup, isArtifact, rfl⟩ :=
    Descriptor.exists_of_resolveText states
  rw [resolve_eq present readable runs, isGroup, isArtifact, filled_or_filled]
  simp only [Option.getD_or, Option.getD_some, reported]

/-- A tool that reports no identity gives the module that the descriptor gives, but for the
dependencies, the packaging and the child modules.  So the two resolvers are interchangeable
just where the descriptor states neither another packaging nor child modules. -/
theorem resolve_of_silent (resolves : Descriptor.resolveFile files request = .ok module)
    (runs : outputFor files settings request = .ok output)
    (silent : (Transcript.ofOutput output).IsSilent) :
    ∃ listed, resolve files settings request = .ok listed ∧
      listed = { module with
        packaging := "jar"
        modules := []
        dependencies := (Transcript.ofOutput output).dependencies } ∧
      ({ listed with dependencies := module.dependencies } = module ↔
        module.packaging = "jar" ∧ module.modules = []) := by
  have gives := resolve_of_run resolves runs
  obtain ⟨-, text, -, states⟩ := Descriptor.exists_of_resolveFile resolves
  obtain ⟨_, _, _, _, -, -, built⟩ := Descriptor.exists_of_resolveText states
  have version : filled unknownVersion (some module.version) = module.version := by
    rw [built]
    exact filled_filled _ _
  simp only [silent.group, silent.artifact, silent.version, Option.getD_none, Option.none_or,
    version] at gives
  refine ⟨_, gives, rfl, ?_⟩
  constructor
  · intro same
    exact ⟨(congrArg Module.packaging same).symm, (congrArg Module.modules same).symm⟩
  · rintro ⟨packaging, modules⟩
    rw [← packaging, ← modules]

end BuildTool

end Resolvers

/-! ### A module with child modules -/

namespace BuildTool.Aggregator

open Descriptor.Referring (leaf group artifact)

def noSpaces : Markup.Spaces := ⟨[], Markup.isSpaces_nil⟩

/-- A descriptor with one child module. -/
def document : Descriptor.Document where
  content :=
    leaf group ⟨"com".toList, by decide, rfl, rfl⟩ <|
    leaf artifact ⟨"all".toList, by decide, rfl, rfl⟩ <|
    leaf ⟨"packaging".toList, rfl, rfl⟩ ⟨"pom".toList, by decide, rfl, rfl⟩ <|
    .block noSpaces ⟨"modules".toList, rfl, rfl⟩
      (leaf ⟨"module".toList, rfl, rfl⟩ ⟨"web".toList, by decide, rfl, rfl⟩ (.last noSpaces))
      (.last noSpaces)
  fits := by decide
  modulesOnce := by decide
  dependenciesOnce := by decide

/-- The descriptor, an installed tool that prints nothing, and one that never ends. -/
def files : FileTree :=
  .ofList ["m"] [(⟨"pom.xml"⟩, .file { text := some (String.ofList document.text) }),
    (⟨"/bin/tool"⟩, .file { tool := .ok {} }),
    (⟨"/bin/endless"⟩, .file { tool := .ok { runningTime := none } })]
    [⟨"/usr/bin"⟩, ⟨"/bin"⟩]

def settings : BuildSettings := { executable := some ⟨"/bin/tool"⟩ }

def request : Descriptor.Request := ⟨⟨"pom.xml"⟩, .compile, [], none⟩

theorem read_text :
    (Descriptor.read (String.ofList document.text).toList).1 = document.managed := by
  rw [String.toList_ofList, Descriptor.read, Descriptor.Document.parse?_text, if_pos (by decide)]

theorem isPresent_eq : files.isPresent request.descriptor = true := by decide +kernel

theorem readText_eq :
    files.readText request.descriptor = .ok (String.ofList document.text) := by
  decide +kernel

theorem identity_eq :
    document.managed.identity = ⟨some "com", some "all", none, some "pom"⟩ := by
  cbv

theorem outputFor_eq : outputFor files settings request = .ok "" := by decide +kernel

theorem isSilent : (Transcript.ofOutput "").IsSilent := by
  constructor <;> rfl

theorem exists_resolveFile :
    ∃ module, Descriptor.resolveFile files request = .ok module ∧
      module.packaging = "pom" ∧ module.modules = ["web"] := by
  have resolves : Descriptor.resolveFile files request =
      Descriptor.resolveText files.workingPath request (String.ofList document.text) := by
    rw [Descriptor.resolveFile, isPresent_eq, readText_eq]
    rfl
  rw [resolves, Descriptor.resolveText]
  simp only [read_text, identity_eq]
  refine ⟨_, rfl, rfl, ?_⟩
  decide

end BuildTool.Aggregator

namespace BuildTool

theorem resolve_of_silent_aggregator :
    ∃ module listed, Descriptor.resolveFile Aggregator.files Aggregator.request = .ok module ∧
      resolve Aggregator.files Aggregator.settings Aggregator.request = .ok listed ∧
      listed = { module with packaging := "jar", modules := [], dependencies := [] } := by
  obtain ⟨module, resolves, -, -⟩ := Aggregator.exists_resolveFile
  obtain ⟨listed, gives, same, -⟩ :=
    resolve_of_silent resolves Aggregator.outputFor_eq Aggregator.isSilent
  exact ⟨module, listed, resolves, gives, same⟩

/-- The two resolvers are not interchangeable: of a module with child modules, packaging and
child modules are lost though the tool reports nothing that contradicts them. -/
theorem not_interchangeable :
    ¬∀ (files : FileTree) (settings : BuildSettings) (request : Descriptor.Request)
        (module : Module) (output : String),
      Descriptor.resolveFile files request = .ok module →
      outputFor files settings request = .ok output → (Transcript.ofOutput output).IsSilent →
      ∃ listed, resolve files settings request = .ok listed ∧
        { listed with dependencies := module.dependencies } = module := by
  intro interchangeable
  obtain ⟨module, resolves, packaging, -⟩ := Aggregator.exists_resolveFile
  obtain ⟨listed, gives, same⟩ := interchangeable _ _ _ _ _ resolves Aggregator.outputFor_eq
    Aggregator.isSilent
  rw [resolve_of_run resolves Aggregator.outputFor_eq] at gives
  cases gives
  have jar : "jar" = module.packaging := congrArg Module.packaging same
  rw [packaging] at jar
  exact absurd jar (by decide)

end BuildTool

end ClassAtlas
