import ClassAtlas.Snapshot

/-!
# The command line program

Runs a command on the snapshot that standard input describes.
-/

namespace ClassAtlas.Main

/-- The rest of a stream. -/
partial def readRest (stream : IO.FS.Stream) (read : String) : IO String := do
  let line ← stream.getLine
  if line.isEmpty then return read else readRest stream (read ++ line)

/-- Prints the outcome of a run, and gives its exit status. -/
def report : Except Program.Failure String → IO UInt32
  | .ok text => do
      IO.print text
      return 0
  | .error failure => do
      IO.eprintln ("error: " ++ failure.message)
      return if failure == .usage then 2 else 1

end ClassAtlas.Main

def main (arguments : List String) : IO UInt32 := do
  let text ← ClassAtlas.Main.readRest (← IO.getStdin) ""
  match ClassAtlas.Snapshot.ofToml? text with
  | some surroundings =>
      ClassAtlas.Main.report (ClassAtlas.Program.run surroundings arguments)
  | none => do
      IO.eprintln "error: standard input is no snapshot"
      return 1
