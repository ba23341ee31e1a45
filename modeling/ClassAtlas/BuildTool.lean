import ClassAtlas.Descriptor.Resolution
import ClassAtlas.Settings.Build
import ClassAtlas.Transcript

/-!
# Resolution by a build tool

The build tool is run in the directory of a descriptor and asked to list the
module's dependencies.  What it prints is read as a transcript; what the transcript
does not say about the identity of the module is taken from the descriptor.
-/

namespace ClassAtlas.BuildTool

open FileTree (Tool)

/-- The executable that is used when none is set. -/
def defaultExecutable : Path := ⟨"mvn"⟩

def executable (settings : BuildSettings) : Path :=
  settings.executable.getD defaultExecutable

/-- An argument that is given only under a condition. -/
def whenSet (condition : Bool) (argument : String) : List String :=
  if condition then [argument] else []

def arguments (settings : BuildSettings) (scope : Scope) (profiles : List String) :
    List String :=
  ["dependency:list", "-DincludeScope=" ++ scope.name, "-B"] ++
    whenSet (!profiles.isEmpty) ("-P" ++ ",".intercalate profiles) ++
    (settings.settingsFile.map fun file => ["-s", file.text]).getD [] ++
    (settings.localRepository.map fun root => ["-Dmaven.repo.local=" ++ root.text]).getD [] ++
    whenSet settings.offline "-o" ++
    whenSet settings.updateSnapshots "-U" ++
    whenSet settings.failFast "-ff"

/-- How many of the last lines of output a failure quotes. -/
def quotedLines : Nat := 20

/-- The last lines of a tool's output. -/
def ending (output : String) : String :=
  let lines := (Text.lines output.toList).map String.ofList
  "\n".intercalate (lines.drop (lines.length - quotedLines))

/-- The tool that an executable names, seen from the directory in which it runs. -/
def start (files : FileTree) (directory executable : Path) (arguments : List String) :
    Except ToolFailure Tool :=
  if (executable.text :: arguments).any fun text => text.toList.contains '\x00' then
    .error (.notStarted executable "nul byte found in provided data")
  else
    match (files.startingAt directory).command executable with
    | .ok tool => .ok tool
    | .error .absent => .error (.notFound executable)
    | .error cause => .error (.notStarted executable cause.message)

/-- All that a tool prints, on its standard output and then on its error output. -/
def printed (tool : Tool) (arguments : List String) : String :=
  (if tool.echoesArguments then String.join (arguments.map (· ++ "\n")) else "") ++
    tool.output ++ tool.errorOutput

/-- Runs the tool for a descriptor and gives what it prints. -/
def run (files : FileTree) (settings : BuildSettings) (descriptor : Path)
    (arguments : List String) : Except ResolveError String :=
  let directory := Descriptor.baseDirectoryOf files.workingPath descriptor
  match start files directory (executable settings) arguments with
  | .error failure => .error (.toolFailed descriptor failure)
  | .ok tool =>
      if !tool.endsWithin settings.timeoutSeconds then
        .error (.timedOut descriptor settings.timeoutSeconds)
      else if tool.isKilled then
        .error (.toolFailed descriptor (.failed none (ending (printed tool arguments))))
      else if tool.status != 0 then
        .error (.toolFailed descriptor
          (.failed (some tool.status) (ending (printed tool arguments))))
      else .ok (printed tool arguments)

/-- How long the tool may take to tell its version, in seconds. -/
def probeSeconds : Nat := 10

/-- The tool is there to be run, as far as can be told beforehand: the executable that is
set is present, or the one that is used when none is set tells its version. -/
def isAvailable (files : FileTree) (settings : BuildSettings) : Bool :=
  match settings.executable with
  | some executable => files.isPresent executable
  | none =>
      match files.command defaultExecutable with
      | .ok tool => tool.endsWithin probeSeconds && !tool.isKilled && tool.status == 0
      | .error _ => false

/-- The identity of a module: what the transcript says, else what the descriptor does. -/
def identity (files : FileTree) (descriptor : Path) (transcript : Transcript) :
    Except ResolveError Descriptor.Identity :=
  if transcript.group.isSome && transcript.artifact.isSome && transcript.version.isSome then
    .ok ⟨transcript.group, transcript.artifact, transcript.version, none⟩
  else
    match files.readText descriptor with
    | .error cause => .error (.unreadable descriptor cause)
    | .ok text =>
        let written := Descriptor.identityOfText text
        .ok ⟨transcript.group.orElse fun _ => written.group,
          transcript.artifact.orElse fun _ => written.artifact,
          transcript.version.orElse fun _ => written.version, none⟩

/-- The module view that the build tool gives. -/
def resolve (files : FileTree) (settings : BuildSettings) (request : Descriptor.Request) :
    Except ResolveError Module := do
  if !files.isPresent request.descriptor then throw (.descriptorAbsent request.descriptor)
  let output ← run files settings request.descriptor
    (arguments settings request.scope request.profiles)
  let transcript := Transcript.ofOutput output
  let identity ← identity files request.descriptor transcript
  return { request.draft files.workingPath with
    group := identity.group.getD unknownVersion
    artifact := identity.artifact.getD unknownVersion
    version := some (identity.version.getD unknownVersion)
    dependencies := transcript.dependencies
    : Module.Draft }.build

end ClassAtlas.BuildTool
