import ClassAtlas.Session

/-!
# The program

A run of the program as a function: from the arguments, the environment and the files to
the text that is printed or the reason why there is none.
-/

namespace ClassAtlas

/-- What a run of the program can see. -/
structure Surroundings where
  files : FileTree
  /-- The directory in which the user is. -/
  directory : Path
  home : Option Path
  environment : String → Option String

namespace Program

/-- Why a run printed nothing. -/
inductive Failure where
  /-- The arguments are no command line. -/
  | usage
  | settings (cause : Settings.Failure)
  | command (cause : Session.Failure)
  deriving DecidableEq, Repr

def Failure.message : Failure → String
  | .usage => "usage: jlens [OPTIONS] module | deps | index | search | resolve-class"
  | .settings cause => cause.message
  | .command cause => cause.message

/-- The settings of a run: those of the file, overridden by the environment and then by
the command line. -/
def settings (surroundings : Surroundings) (invocation : CommandLine.Invocation) :
    Except Settings.Failure Settings := do
  let environment ← Settings.Layer.ofEnvironment surroundings.environment
  let fromFile ← Settings.load surroundings.files invocation.settingsFile
    surroundings.directory
  return fromFile.withLayers [environment, invocation.layer]

/-- Runs the program with these arguments and gives what it prints. -/
def run (surroundings : Surroundings) (arguments : List String) : Except Failure String :=
  match CommandLine.parse? arguments with
  | none => .error .usage
  | some invocation =>
      match settings surroundings invocation with
      | .error cause => .error (.settings cause)
      | .ok settings =>
          let session : Session := {
            files := surroundings.files
            directory := surroundings.directory
            home := surroundings.home
            settings
            clock := id }
          match session.run invocation.command with
          | .error cause => .error (.command cause)
          | .ok text => .ok text

end Program
end ClassAtlas
