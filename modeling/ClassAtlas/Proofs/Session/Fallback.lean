import ClassAtlas.Proofs.Resolver.Agreement
import ClassAtlas.Session

/-!
# Falling back on the descriptor

Whatever a build tool does, what goes wrong with it is a failure of the tool, and after such a
failure the descriptor itself is resolved.  So a module whose descriptor can be resolved is
loaded with any build tool: as the descriptor states it when the tool fails, and under the
identity that the tool reports when it does not (`exists_loadModule`).
-/

namespace ClassAtlas

/-! ## Runs of the tool -/

/-- Each part of the identity is the reported one, else the written one, and there is a version
in any case. -/
structure Module.HasIdentity (module : Module) (reported : Transcript)
    (written : Descriptor.Identity) : Prop where
  group : some module.group = reported.group.or written.group
  artifact : some module.artifact = reported.artifact.or written.artifact
  version : module.version = filled unknownVersion (reported.version.or written.version)

namespace BuildTool

variable {files : FileTree} {settings : BuildSettings} {request : Descriptor.Request}
variable {module : Module} {cause : ResolveError} {output : String}

theorem resolve_of_failed (resolves : Descriptor.resolveFile files request = .ok module)
    (failed : outputFor files settings request = .error cause) :
    resolve files settings request = .error cause := by
  obtain ⟨present, -⟩ := Descriptor.exists_of_resolveFile resolves
  rw [outputFor] at failed
  rw [resolve, failed, present]
  rfl

theorem exists_resolve_of_run (resolves : Descriptor.resolveFile files request = .ok module)
    (runs : outputFor files settings request = .ok output) :
    ∃ resolved text, resolve files settings request = .ok resolved ∧
      files.readText request.descriptor = .ok text ∧
      resolved.HasIdentity (Transcript.ofOutput output) (Descriptor.identityOfText text) := by
  obtain ⟨present, text, readable, states⟩ := Descriptor.exists_of_resolveFile resolves
  obtain ⟨group, artifact, -, -, isGroup, isArtifact, -⟩ :=
    Descriptor.exists_of_resolveText states
  -- one of the two identities states each of group and artifact, so neither is filled in
  have stated : ∀ (reported : Option String) (written : String),
      some ((reported.or (some written)).getD unknownVersion) = reported.or (some written) := by
    intro reported written
    cases reported with
    | none => rfl
    | some text => rfl
  refine ⟨_, text, resolve_eq present readable runs, readable, ?_⟩
  constructor
  · rw [isGroup]
    exact stated _ _
  · rw [isArtifact]
    exact stated _ _
  · rfl

end BuildTool

/-! ## Loading a module -/

theorem Module.HasIdentity.hydrate {module : Module} {reported : Transcript}
    {written : Descriptor.Identity} (identity : module.HasIdentity reported written)
    (files : FileTree) (repository : Repository) :
    (repository.hydrate files module).HasIdentity reported written := by
  constructor
  · exact identity.group
  · exact identity.artifact
  · have version : (repository.hydrate files module).version =
        orWhenBlank unknownVersion module.version := rfl
    rw [version, orWhenBlank_eq_filled, identity.version, filled_filled]

namespace Session

variable {session : Session} {choice : ModuleChoice} {descriptor : Path} {module : Module}

/-- The module with the archives of the local repository, when there is one. -/
def withArchives (session : Session) (module : Module) : Module :=
  match session.repository? with
  | some repository => repository.hydrate session.files module
  | none => module

theorem hasIdentity_withArchives {reported : Transcript} {written : Descriptor.Identity}
    (identity : module.HasIdentity reported written) :
    (session.withArchives module).HasIdentity reported written := by
  rw [withArchives]
  cases session.repository? with
  | none => exact identity
  | some repository => exact identity.hydrate session.files repository

theorem loadModule_of_resolveModule
    (resolves : session.resolveModule choice descriptor = .ok module) :
    session.loadModule choice descriptor = .ok (session.withArchives module) := by
  rw [loadModule, resolves, withArchives]
  cases session.repository? with
  | none => rfl
  | some repository => rfl

/-- What the build tool prints about the module of a descriptor. -/
def toolOutput (session : Session) (choice : ModuleChoice) (descriptor : Path) :
    Except ResolveError String :=
  BuildTool.outputFor session.files session.settings.build (session.request choice descriptor)

theorem resolveModule_of_direct (direct : choice.direct = true)
    (resolves : Descriptor.resolveFile session.files (session.request choice descriptor) =
      .ok module) :
    session.resolveModule choice descriptor = .ok module := by
  simp only [resolveModule, resolver, direct, if_true, Resolver.resolve, resolves]

section External

variable (configured : session.settings.build.executable.isSome = true)
variable (undirected : choice.direct = false)
include configured undirected

theorem resolver_eq_externalTool : session.resolver choice = .externalTool := by
  rw [resolver, undirected, Resolver.selected, configured]
  rfl

theorem resolveModule_of_failed {cause : ResolveError}
    (resolves : Descriptor.resolveFile session.files (session.request choice descriptor) =
      .ok module)
    (failed : session.toolOutput choice descriptor = .error cause) :
    session.resolveModule choice descriptor = .ok module := by
  have failure : cause.isToolFailure = true := BuildTool.isToolFailure_of_run failed
  have tool := BuildTool.resolve_of_failed resolves failed
  have external := resolver_eq_externalTool configured undirected
  simp only [resolveModule, external, Resolver.resolve, tool, failure, if_true, resolves]

theorem exists_resolveModule_of_run {output : String}
    (resolves : Descriptor.resolveFile session.files (session.request choice descriptor) =
      .ok module)
    (runs : session.toolOutput choice descriptor = .ok output) :
    ∃ resolved text, session.resolveModule choice descriptor = .ok resolved ∧
      session.files.readText descriptor = .ok text ∧
      resolved.HasIdentity (Transcript.ofOutput output) (Descriptor.identityOfText text) := by
  obtain ⟨resolved, text, tool, readable, identity⟩ :=
    BuildTool.exists_resolve_of_run resolves runs
  have external := resolver_eq_externalTool configured undirected
  refine ⟨resolved, text, ?_, readable, identity⟩
  simp only [resolveModule, external, Resolver.resolve, tool]

end External

/-- With a build tool that behaves in any way, a module is loaded when its descriptor can be
resolved.  It is the module that the descriptor states when the tool is not asked or fails, and
the one that the tool names when it does not fail; what the tool leaves open the descriptor
says. -/
theorem exists_loadModule (session : Session) (choice : ModuleChoice) (descriptor : Path)
    (configured : session.settings.build.executable.isSome = true)
    (resolves : Descriptor.resolveFile session.files (session.request choice descriptor) =
      .ok module) :
    ∃ loaded, session.loadModule choice descriptor = .ok loaded ∧
      (choice.direct = true → loaded = session.withArchives module) ∧
      (choice.direct = false →
        (∀ cause, session.toolOutput choice descriptor = .error cause →
          loaded = session.withArchives module) ∧
        ∀ output, session.toolOutput choice descriptor = .ok output →
          ∃ text, session.files.readText descriptor = .ok text ∧
            loaded.HasIdentity (Transcript.ofOutput output)
              (Descriptor.identityOfText text)) := by
  cases direct : choice.direct with
  | true =>
      have loads := loadModule_of_resolveModule (resolveModule_of_direct direct resolves)
      refine ⟨_, loads, fun _ => rfl, ?_⟩
      intro undirected
      cases undirected
  | false =>
      cases outcome : session.toolOutput choice descriptor with
      | error cause =>
          have loads := loadModule_of_resolveModule
            (resolveModule_of_failed configured direct resolves outcome)
          refine ⟨_, loads, fun _ => rfl, fun _ => ⟨fun _ _ => rfl, ?_⟩⟩
          intro output runs
          cases runs
      | ok output =>
          obtain ⟨resolved, text, resolvesToo, readable, identity⟩ :=
            exists_resolveModule_of_run configured direct resolves outcome
          refine ⟨_, loadModule_of_resolveModule resolvesToo, ?_, fun _ => ⟨?_, ?_⟩⟩
          · intro isDirect
            cases isDirect
          · intro cause fails
            cases fails
          · intro other runs
            cases runs
            exact ⟨text, readable, hasIdentity_withArchives identity⟩

/-! ### Tools that are missing, installed, and without an end -/

open BuildTool

/-- A session in the directory of a module with one child module. -/
def ofExecutable (executable : Path) : Session where
  files := Aggregator.files
  directory := ⟨"/m"⟩
  home := none
  settings := { build := { executable := some executable } }
  clock := id

theorem exists_loadModule_aggregator :
    ∃ module, Descriptor.resolveFile Aggregator.files Aggregator.request = .ok module ∧
      (ofExecutable ⟨"absent"⟩).loadModule {} ⟨"pom.xml"⟩ = .ok module ∧
      (ofExecutable ⟨"endless"⟩).loadModule {} ⟨"pom.xml"⟩ = .ok module ∧
      ∃ loaded, (ofExecutable ⟨"tool"⟩).loadModule {} ⟨"pom.xml"⟩ = .ok loaded ∧
        loaded.artifact = "all" := by
  obtain ⟨module, resolves, -, -⟩ := Aggregator.exists_resolveFile
  obtain ⟨ofDescriptor, loads, -, afterFailure⟩ :=
    exists_loadModule (ofExecutable ⟨"absent"⟩) {} ⟨"pom.xml"⟩ rfl resolves
  have missing : (ofExecutable ⟨"absent"⟩).toolOutput {} ⟨"pom.xml"⟩ =
      .error (.toolFailed ⟨"pom.xml"⟩ (.notFound ⟨"absent"⟩)) := by decide +kernel
  obtain ⟨ofDescriptorToo, loadsToo, -, afterTimeout⟩ :=
    exists_loadModule (ofExecutable ⟨"endless"⟩) {} ⟨"pom.xml"⟩ rfl resolves
  have late : (ofExecutable ⟨"endless"⟩).toolOutput {} ⟨"pom.xml"⟩ =
      .error (.timedOut ⟨"pom.xml"⟩ 300) := by decide +kernel
  obtain ⟨loaded, loadsAtLast, -, afterRun⟩ :=
    exists_loadModule (ofExecutable ⟨"tool"⟩) {} ⟨"pom.xml"⟩ rfl resolves
  have runs : (ofExecutable ⟨"tool"⟩).toolOutput {} ⟨"pom.xml"⟩ = .ok "" := by decide +kernel
  refine ⟨module, resolves, ?_, ?_, loaded, loadsAtLast, ?_⟩
  · rw [loads, (afterFailure rfl).1 _ missing]
    rfl
  · rw [loadsToo, (afterTimeout rfl).1 _ late]
    rfl
  · obtain ⟨text, readable, identity⟩ := (afterRun rfl).2 "" runs
    obtain rfl : String.ofList Aggregator.document.text = text :=
      Except.ok.inj (Aggregator.readText_eq.symm.trans readable)
    have written : Descriptor.identityOfText (String.ofList Aggregator.document.text) =
        ⟨some "com", some "all", none, some "pom"⟩ := by
      rw [Descriptor.identityOfText, Aggregator.read_text, Aggregator.identity_eq]
    have artifact := identity.artifact
    rw [written] at artifact
    exact Option.some.inj artifact

end Session

end ClassAtlas
