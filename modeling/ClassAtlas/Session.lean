import ClassAtlas.Cache.Registry
import ClassAtlas.CommandLine.Command
import ClassAtlas.Indexing.Pass
import ClassAtlas.NameResolution.Basic
import ClassAtlas.Report.Record
import ClassAtlas.Report.Summary
import ClassAtlas.Repository
import ClassAtlas.Resolver
import ClassAtlas.Settings.Environment
import ClassAtlas.SourceHeader

/-!
# Sessions

A session runs one command: it resolves the module that the command is about, finds the
archives of its dependencies, builds the index of its classes when that is needed, and
prints the outcome.
-/

namespace ClassAtlas

/-- What the steps of a command work with. -/
structure Session where
  files : FileTree
  /-- The directory in which the user is, as it was given. -/
  directory : Path
  home : Option Path
  settings : Settings
  /-- The instant of each reading of the clock, in nanoseconds. -/
  clock : Nat → Nat

namespace Session

/-- Why a command has no outcome. -/
inductive Failure where
  | noDescriptor (directory : Path)
  | unresolved (descriptor : Path) (cause : ResolveError)
  | unreadableSource (source : Path) (cause : ReadError)
  | noRepository
  | patternTooLarge (pattern : String)
  deriving DecidableEq, Repr

/-- The words for a pattern that is too large. -/
def tooLargeMessage : String := "Compiled regex exceeds size limit of 10485760 bytes."

/-- The words for the causes of a failed resolution, each after what it caused. -/
def causes (cause : ResolveError) : List String :=
  match cause with
  | .unreadable _ reason => [cause.message, reason.message]
  | _ => [cause.message]

/-- The words for a failure and its causes. -/
def Failure.message : Failure → String
  | .noDescriptor directory =>
      "no " ++ descriptorName ++ " found in " ++ directory.text ++ " or its parents"
  | .unresolved descriptor cause =>
      ": ".intercalate (("failed to resolve " ++ descriptor.text) :: causes cause)
  | .unreadableSource source cause =>
      "failed to read " ++ source.text ++ ": " ++ cause.message
  | .noRepository => "no local repository configured"
  | .patternTooLarge pattern =>
      ": ".intercalate ["Invalid search pattern '" ++ pattern ++ "'", tooLargeMessage,
        tooLargeMessage]

/-- A path as seen from the directory of the user. -/
def absolute (session : Session) (path : Path) : Path :=
  if path.isAbsolute then path else session.directory.join path.text

def repository? (session : Session) : Option Repository :=
  (session.settings.build.effectiveLocalRepository session.home).map Repository.mk

/-- The descriptor of the chosen module.  A directory stands for the descriptor in it. -/
def descriptor (session : Session) (choice : ModuleChoice) : Except Failure Path :=
  match choice.descriptor with
  | some path =>
      let path := session.absolute path
      .ok (if session.files.isDirectory path then path.join descriptorName else path)
  | none =>
      match findDescriptor? session.files session.directory with
      | some path => .ok path
      | none => .error (.noDescriptor session.directory)

/-- What the resolver of a module is asked for. -/
def request (session : Session) (choice : ModuleChoice) (descriptor : Path) :
    Descriptor.Request where
  descriptor
  scope := choice.scope
  profiles := choice.profiles
  localRepository := session.settings.build.effectiveLocalRepository session.home

/-- The resolver for the chosen module. -/
def resolver (session : Session) (choice : ModuleChoice) : Resolver :=
  if choice.direct then .descriptor else .selected session.settings.build

/-- Resolves a module.  When a build tool has failed the descriptor itself is read. -/
def resolveModule (session : Session) (choice : ModuleChoice) (descriptor : Path) :
    Except ResolveError Module :=
  let request := session.request choice descriptor
  match (session.resolver choice).resolve session.files session.settings.build request with
  | .ok module => .ok module
  | .error cause =>
      if cause.isToolFailure then
        Resolver.descriptor.resolve session.files session.settings.build request
      else .error cause

/-- The module of a descriptor, with the archives found in the local repository. -/
def loadModule (session : Session) (choice : ModuleChoice) (descriptor : Path) :
    Except Failure Module :=
  match session.resolveModule choice descriptor with
  | .error cause => .error (.unresolved descriptor cause)
  | .ok module =>
      match session.repository? with
      | some repository => .ok (repository.hydrate session.files module)
      | none => .ok module

def chosenModule (session : Session) (choice : ModuleChoice) : Except Failure Module := do
  let descriptor ← session.descriptor choice
  session.loadModule choice descriptor

/-- The index of a module's classes. -/
def buildIndex (session : Session) (module : Module) : ClassIndex × Indexing.Summary :=
  Indexing.ofModule session.files session.settings.scanLimit {} module

/-- The dependencies to be listed. -/
def dependencies (session : Session) (module : Module) (missing : Bool) :
    Except Failure (List Dependency) :=
  if missing then
    match session.repository? with
    | some repository => .ok (repository.missing session.files module)
    | none => .error .noRepository
  else .ok module.dependencies

/-- The header of a source file, if one was given. -/
def sourceHeader (session : Session) : Option Path → Except Failure SourceHeader
  | none => .ok {}
  | some source =>
      let path := session.absolute source
      match session.files.readText path with
      | .ok text => .ok (SourceHeader.ofSource text)
      | .error cause => .error (.unreadableSource path cause)

/-- Where the classes of a module are known by name: what is needed to resolve a name in
a source file. -/
structure NameContext where
  module : Module
  index : ClassIndex
  imports : List String
  package : Option String

/-- What a name means. -/
def NameContext.resolve (context : NameContext) (name : String) : Resolution :=
  NameResolution.resolve context.index context.imports context.package name

/-- What names mean, each looked up in a cache of what is known about classes first.  The
clock has been read `readings` times. -/
def resolveNames (context : NameContext) (clock : Nat → Nat) (readings : Nat)
    (cache : Cache ClassKey Resolution) : List String → List Resolution
  | [] => []
  | name :: names =>
      let (cache, outcome) := cache.load (clock readings) (clock (readings + 1))
        (.inModule context.module name) (.ok (context.resolve name))
      outcome.answer.toOption.toList ++
        resolveNames context clock (readings + 2) cache names

def registry (session : Session) : CacheRegistry Resolution :=
  .ofSettings session.settings.caches

/-- A printed record. -/
def recordText (data : Data) : String :=
  data.pretty ++ "\n"

/-- The numbers of an index and of the pass that built it, as a record. -/
def indexRecord (module : Module) (index : ClassIndex) (summary : Indexing.Summary) : Data :=
  .table ([("module", .text module.coordinates),
    ("simple_names", .natural index.simpleNameCount),
    ("classes", .natural index.classCount),
    ("owned_packages", .natural index.ownedPackageCount)] ++ summary.fields)

def hitsText (kind : SearchKind) (pattern : String) (hits : List ClassIndex.Hit) : String :=
  if hits.isEmpty then
    "No classes match '" ++ pattern ++ "' (" ++ kind.name ++ ").\n"
  else Report.classTable (hits.map fun hit => (hit.name.qualified, hit.owner))

/-- Runs a command and gives what it prints. -/
def run (session : Session) : Command → Except Failure String
  | .describe choice asRecord => do
      let module ← session.chosenModule choice
      return if asRecord then recordText module.record
        else Report.moduleDetails module ++ "\n"
  | .listDependencies choice only missing asRecord => do
      let module ← session.chosenModule choice
      let listed ← session.dependencies module missing
      let listed := match only with
        | some scope => listed.filter (·.scope == scope)
        | none => listed
      return if asRecord then recordText (.list (listed.map Dependency.record))
        else Report.dependencyTable listed
  | .index choice asRecord => do
      let module ← session.chosenModule choice
      let (index, summary) := session.buildIndex module
      return if asRecord then recordText (indexRecord module index summary)
        else Report.indexSummary module index summary
  | .search choice pattern kind limit asRecord => do
      let module ← session.chosenModule choice
      let (index, _) := session.buildIndex module
      match index.search? kind pattern limit with
      | none => throw (.patternTooLarge pattern)
      | some hits =>
          return if asRecord then recordText (.list (hits.map ClassIndex.Hit.record))
            else hitsText kind pattern hits
  | .resolve choice names imports package source asRecord => do
      let header ← session.sourceHeader source
      let module ← session.chosenModule choice
      let (index, _) := session.buildIndex module
      let context : NameContext := {
        module, index
        imports := imports ++ header.imports
        package := package.orElse fun _ => header.package }
      let resolutions :=
        resolveNames context session.clock 0 session.registry.classMetadata names
      return if asRecord then recordText (.list (resolutions.map Resolution.record))
        else Report.resolutionsText resolutions

end Session
end ClassAtlas
