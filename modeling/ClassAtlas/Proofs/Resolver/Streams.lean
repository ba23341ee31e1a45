import ClassAtlas.Proofs.Resolver.Agreement
import ClassAtlas.Proofs.Transcript.Joining

/-!
# The two streams of a build tool

What a build tool prints on its error output is read right behind what it prints on its standard
output.  A last line of standard output that no line feed ends is therefore read together with
the first line of the error output, and only in this line can a dependency be lost, changed or
made up (`dependencies_of_streams`).
-/

namespace ClassAtlas.BuildTool

open FileTree (Tool)
open Transcript (listedIn finished unfinished firstLine afterFirstLine)

section Streams

variable {files : FileTree} {settings : BuildSettings} {request : Descriptor.Request}
variable {tool : Tool} {output : String} {module : Module}

/-! ## What is printed where -/

/-- The tool that is started for a request. -/
def startedFor (files : FileTree) (settings : BuildSettings) (request : Descriptor.Request) :
    Except ToolFailure Tool :=
  start files (Descriptor.baseDirectoryOf files.workingPath request.descriptor)
    (executable settings) (arguments settings request.scope request.profiles)

/-- What a tool prints on its standard output. -/
def standardOutput (tool : Tool) (arguments : List String) : String :=
  (if tool.echoesArguments then String.join (arguments.map (· ++ "\n")) else "") ++ tool.output

/-- A tool that runs to its end without a failure gives what it prints. -/
theorem eq_of_outputFor (started : startedFor files settings request = .ok tool)
    (runs : outputFor files settings request = .ok output) :
    output = standardOutput tool (arguments settings request.scope request.profiles) ++
      tool.errorOutput := by
  obtain ⟨ran, startedToo, -, -, -, rfl⟩ := run_eq_ok_iff.1 runs
  obtain rfl : tool = ran := Except.ok.inj (started.symm.trans startedToo)
  rfl

/-! ## What the module takes from it -/

theorem isPresent_of_readText {path : Path} {text : String}
    (readable : files.readText path = .ok text) : files.isPresent path = true := by
  rw [FileTree.isPresent]
  cases found : files.find path with
  | ok place => rfl
  | error cause =>
      rw [FileTree.readText, FileTree.read, found] at readable
      cases readable

/-- The dependencies of a module are those that the tool lists. -/
theorem dependencies_of_resolve (runs : outputFor files settings request = .ok output)
    (resolves : resolve files settings request = .ok module) :
    module.dependencies = (Transcript.ofOutput output).dependencies := by
  rw [outputFor] at runs
  rw [resolve, runs] at resolves
  cases present : files.isPresent request.descriptor with
  | false =>
      rw [present] at resolves
      cases resolves
  | true =>
      rw [present] at resolves
      cases identified : identity files request.descriptor (Transcript.ofOutput output) with
      | error cause =>
          simp only [bind, Except.bind, identified] at resolves
          cases resolves
      | ok stated =>
          simp only [bind, Except.bind, identified] at resolves
          cases resolves
          rfl

/-- A module has the dependencies that are listed in the ended lines of standard output, in the
line in which the two streams meet, and in the other lines of the error output.  So the streams
do not disturb each other exactly when that line lists what its two parts do, as it always does
when one of the parts is empty. -/
theorem dependencies_of_streams (started : startedFor files settings request = .ok tool)
    (runs : outputFor files settings request = .ok output) :
    let printed :=
      (standardOutput tool (arguments settings request.scope request.profiles)).toList
    let errors := tool.errorOutput.toList
    (∀ text, files.readText request.descriptor = .ok text →
      ∃ module, resolve files settings request = .ok module) ∧
    ∀ module, resolve files settings request = .ok module →
      module.dependencies = listedIn (finished printed) ++
        (listedIn (unfinished printed ++ firstLine errors) ++ listedIn (afterFirstLine errors)) ∧
      (module.dependencies = listedIn printed ++ listedIn errors ↔
        listedIn (unfinished printed ++ firstLine errors) =
          listedIn (unfinished printed) ++ listedIn (firstLine errors)) ∧
      (unfinished printed = [] ∨ firstLine errors = [] →
        module.dependencies = listedIn printed ++ listedIn errors) := by
  intro printed errors
  constructor
  · intro text readable
    exact ⟨_, resolve_eq (isPresent_of_readText readable) readable runs⟩
  · intro module resolves
    have listed : module.dependencies = listedIn (printed ++ errors) := by
      rw [dependencies_of_resolve runs resolves, eq_of_outputFor started runs, listedIn,
        ← String.toList_append, String.ofList_toList]
    rw [listed]
    refine ⟨Transcript.listedIn_append printed errors,
      Transcript.listedIn_append_iff printed errors, ?_⟩
    rw [Transcript.listedIn_append_iff]
    rintro (ended | begun)
    · rw [ended, Transcript.listedIn_nil, List.nil_append, List.nil_append]
    · rw [begun, Transcript.listedIn_nil, List.append_nil, List.append_nil]

end Streams

/-! ### A record that is lost -/

namespace Unended

open Aggregator (settings request)

/-- A tool that does not end the last line of its standard output. -/
def tool : Tool where
  output := "[INFO]    g:a:jar:1:compile\n[INFO]    g:b:jar:1:test"
  errorOutput := "WARNING: deprecated\n[INFO]    g:c:jar:1:compile\n"

def files : FileTree :=
  .ofList ["m"] [(⟨"pom.xml"⟩, .file { text := some "<project/>" }),
    (⟨"/bin/tool"⟩, .file { tool := .ok tool })]

theorem startedFor_eq : startedFor files settings request = .ok tool := by decide +kernel

theorem outputFor_eq :
    outputFor files settings request = .ok (tool.output ++ tool.errorOutput) := by decide +kernel

theorem readText_eq : files.readText request.descriptor = .ok "<project/>" := by decide +kernel

end Unended

theorem dependencies_of_streams_unended :
    startedFor Unended.files Aggregator.settings Aggregator.request = .ok Unended.tool ∧
      outputFor Unended.files Aggregator.settings Aggregator.request =
        .ok (Unended.tool.output ++ Unended.tool.errorOutput) ∧
      ∃ module, resolve Unended.files Aggregator.settings Aggregator.request = .ok module ∧
        module.dependencies.map (·.artifact) = ["a", "c"] := by
  obtain ⟨gives, streams⟩ := dependencies_of_streams Unended.startedFor_eq Unended.outputFor_eq
  obtain ⟨module, resolves⟩ := gives _ Unended.readText_eq
  refine ⟨Unended.startedFor_eq, Unended.outputFor_eq, module, resolves, ?_⟩
  rw [(streams module resolves).1]
  decide +kernel

/-- The streams of a tool do disturb each other: a dependency in the last line of standard output
is lost when that line is not ended. -/
theorem not_dependencies_of_streams :
    ¬∀ (files : FileTree) (settings : BuildSettings) (request : Descriptor.Request) (tool : Tool)
        (output : String) (module : Module),
      startedFor files settings request = .ok tool →
      outputFor files settings request = .ok output →
      resolve files settings request = .ok module →
      module.dependencies =
        listedIn (standardOutput tool (arguments settings request.scope request.profiles)).toList ++
          listedIn tool.errorOutput.toList := by
  intro undisturbed
  have resolves := resolve_eq (isPresent_of_readText Unended.readText_eq) Unended.readText_eq
    Unended.outputFor_eq
  have listed := dependencies_of_resolve Unended.outputFor_eq resolves
  rw [undisturbed _ _ _ _ _ _ Unended.startedFor_eq Unended.outputFor_eq resolves] at listed
  exact absurd (congrArg List.length listed) (by decide +kernel)

end ClassAtlas.BuildTool
