import ClassAtlas.Program

/-!
# Snapshots

A snapshot describes in TOML what a run of the program can see: the directory of the
user, the home directory, the environment, and the files by their paths.  A file is a
text, an archive given by the names of its entries, or a tool given by what it does when
it is started; a record without fields is an empty directory.
-/

namespace ClassAtlas.Snapshot

/-- A running time in milliseconds, or the word for a run without an end. -/
def runningTimeOfData? : Data → Option (Option Nat)
  | .text "endless" => some none
  | data => data.natural?.map some

/-- A tool that is given as a record. -/
def toolOfData? (data : Data) : Option FileTree.Tool := do
  let fields ← data.fields? ["output", "error_output", "status", "echoes_arguments",
    "running_time", "is_killed"] true
  return {
    output := ← fields.withDefault "output" "" Data.text?
    errorOutput := ← fields.withDefault "error_output" "" Data.text?
    status := ← fields.withDefault "status" 0 Data.natural?
    echoesArguments := ← fields.withDefault "echoes_arguments" false Data.boolean?
    runningTime := ← fields.withDefault "running_time" (some 0) runningTimeOfData?
    isKilled := ← fields.withDefault "is_killed" false Data.boolean? }

/-- What stands at a place. -/
def entryOfData? : Data → Option FileTree.Entry
  | .text text => some (.file { text := some text })
  | .list entries =>
      (entries.mapM Data.text?).map fun names => .file { archive := some names.eraseDups }
  | .table [] => some .directory
  | data => (toolOfData? data).map fun tool => .file { text := some "", tool := .ok tool }

/-- The entries of a table, read one by one. -/
def tableOf? {β : Type} (read : Data → Option β) : Data → Option (List (String × β))
  | .table entries => entries.mapM fun (key, data) => (read data).map (key, ·)
  | _ => none

/-- The directories in which commands are looked for, as the environment lists them. -/
def commandDirectoriesOf (listed : Option String) : List Path :=
  ((listed.getD "/bin:/usr/bin").toList.splitOn ':').map (⟨String.ofList ·⟩)

/-- What a run can see, given as a record. -/
def ofData? (data : Data) : Option Surroundings := do
  let fields ← data.fields? ["directory", "home", "environment", "files"] true
  let environment ← fields.withDefault "environment" [] (tableOf? Data.text?)
  let files ← fields.withDefault "files" [] (tableOf? entryOfData?)
  return {
    files := FileTree.ofList [] (files.map fun (path, entry) => (⟨path⟩, entry))
      (commandDirectoriesOf (environment.lookup "PATH"))
    directory := ← fields.withDefault "directory" ⟨""⟩ Path.ofData?
    home := ← fields.withDefault "home" none (Data.optional Path.ofData?)
    environment := fun name => environment.lookup name }

/-- What a run can see, as a TOML document. -/
def ofToml? (text : String) : Option Surroundings :=
  (Data.ofToml? text).bind ofData?

end ClassAtlas.Snapshot
