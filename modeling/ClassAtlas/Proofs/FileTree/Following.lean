import ClassAtlas.FileTree
import ClassAtlas.Proofs.Path.Segments

/-!
# Where paths lead

Following a path that leads somewhere only its active segments count, so two spellings of the
same path that both lead somewhere lead to the same place (`find_unique`).  A path to a file
ends in the name of that file.  The search for a command ends in the first directory that
settles whether it can be run (`searchCommand_eq_ok_iff`).
-/

namespace ClassAtlas.FileTree

variable {files : FileTree}

/-- The segments of a path as they are followed. -/
def steps (segments : List (List Char)) : List String :=
  segments.map String.ofList

theorem ofList_eq_iff {segment : List Char} {text : String} :
    String.ofList segment = text ↔ segment = text.toList :=
  ⟨fun same => by rw [← same, String.toList_ofList], fun same => by
    rw [same, String.ofList_toList]⟩

theorem isIdle_iff (segment : List Char) :
    Path.isIdle segment = (String.ofList segment == "" || String.ofList segment == ".") := by
  rw [Bool.eq_iff_iff]
  simp [Path.isIdle, ofList_eq_iff]

/-- One step of a path below a directory. -/
theorem follow_cons (place : Place) (segment : List Char) (rest : List (List Char)) :
    files.follow place .directory (steps (segment :: rest)) =
      if Path.isIdle segment then files.follow place .directory (steps rest)
      else if segment = ['.', '.'] then files.follow place.dropLast .directory (steps rest)
      else if (String.ofList segment).utf8ByteSize > longestName then .error .nameTooLong
      else match files.entryAt? (place ++ [String.ofList segment]) with
        | some next => files.follow (place ++ [String.ofList segment]) next (steps rest)
        | none => .error .absent := by
  have ascends : (String.ofList segment == "..") = decide (segment = ['.', '.']) := by
    rw [Bool.eq_iff_iff]
    simp [ofList_eq_iff]
  rw [steps, List.map_cons, follow, isIdle_iff, ascends]
  simp only [decide_eq_true_eq]
  rfl

/-- A path that leads somewhere leads there without its idle segments. -/
theorem follow_filter {place : Place} {entry : Entry} {segments : List (List Char)}
    {result : Place × Entry} (followed : files.follow place entry (steps segments) = .ok result) :
    files.follow place entry (steps (segments.filter (!Path.isIdle ·))) = .ok result := by
  induction segments generalizing place entry with
  | nil => exact followed
  | cons segment rest ih =>
      cases entry with
      | file file => exact nomatch followed
      | directory =>
          rw [follow_cons] at followed
          cases idle : Path.isIdle segment with
          | true =>
              rw [idle, if_pos rfl] at followed
              rw [List.filter_cons_of_neg (by simp [idle])]
              exact ih followed
          | false =>
              rw [idle, if_neg Bool.false_ne_true] at followed
              rw [List.filter_cons_of_pos (by simp [idle]), follow_cons, idle,
                if_neg Bool.false_ne_true]
              split at followed
              · rename_i ascends
                rw [if_pos ascends]
                exact ih followed
              · rename_i descends
                rw [if_neg descends]
                split at followed
                · exact nomatch followed
                · rename_i short
                  rw [if_neg short]
                  split at followed
                  · exact ih followed
                  · exact nomatch followed

/-- A file is reached by its name. -/
theorem last_of_follow {place last : Place} {file : File} {segments : List (List Char)}
    (active : ∀ segment ∈ segments, Path.isIdle segment = false)
    (followed : files.follow place .directory (steps segments) = .ok (last, .file file)) :
    ∃ front name, segments = front ++ [name] ∧ name ≠ ['.', '.'] := by
  induction segments generalizing place with
  | nil => exact nomatch followed
  | cons segment rest ih =>
      have onward : ∀ middle, files.follow middle .directory (steps rest) = .ok (last, .file file) →
          ∃ front name, segment :: rest = front ++ [name] ∧ name ≠ ['.', '.'] := by
        intro middle goes
        obtain ⟨front, name, split, descends⟩ :=
          ih (fun other member => active other (List.mem_cons_of_mem _ member)) goes
        exact ⟨segment :: front, name, by rw [split, List.cons_append], descends⟩
      rw [follow_cons, active segment List.mem_cons_self, if_neg Bool.false_ne_true] at followed
      split at followed
      · exact onward _ followed
      · rename_i descends
        split at followed
        · exact nomatch followed
        · split at followed
          · rename_i next stands
            cases next with
            | directory => exact onward _ followed
            | file other =>
                cases rest with
                | nil => exact ⟨[], segment, rfl, descends⟩
                | cons second rest => exact nomatch followed
          · exact nomatch followed

/-- A path that leads somewhere is followed from where it starts. -/
theorem follow_of_find {path : Path} {result : Place × Entry}
    (found : files.find path = .ok result) :
    files.follow (if path.isAbsolute then [] else files.workingDirectory) .directory
      (steps path.segments) = .ok result := by
  rw [find] at found
  split at found
  · exact nomatch found
  · split at found
    · exact nomatch found
    · split at found
      · exact nomatch found
      · exact follow_filter found

/-- A path to a file has a file name. -/
theorem exists_fileName {path : Path} {place : Place} {file : File}
    (found : files.find path = .ok (place, .file file)) : ∃ name, path.fileName? = some name := by
  have active : ∀ segment ∈ path.segments, Path.isIdle segment = false := fun segment member => by
    simpa using (List.mem_filter.1 member).2
  obtain ⟨front, name, ends, descends⟩ := last_of_follow active (follow_of_find found)
  exact ⟨_, Path.fileName?_of_segments ends descends⟩

/-! ## Commands -/

/-- The search for a command ends in this directory: the command can be run there, or it
fails in a way that is not passed over. -/
def endsSearch (files : FileTree) (name : String) (directory : Path) : Bool :=
  match files.toolAt (directory.join name) with
  | .ok _ => true
  | .error failure => !failure.isPassedOver

/-- A command is found exactly when it can be run in the first directory in which the search
ends. -/
theorem searchCommand_eq_ok_iff {name : String} {cause : ReadError} {directories : List Path}
    {tool : Tool} :
    files.searchCommand name cause directories = .ok tool ↔
      ∃ directory, directories.find? (files.endsSearch name) = some directory ∧
        files.toolAt (directory.join name) = .ok tool := by
  induction directories generalizing cause with
  | nil => simp [searchCommand]
  | cons first others ih =>
      rw [searchCommand, List.find?_cons, endsSearch]
      cases reached : files.toolAt (first.join name) with
      | ok other => simp [reached]
      | error failure =>
          cases passed : failure.isPassedOver with
          | true => simp [passed, ih]
          | false => simp [passed, reached]

end ClassAtlas.FileTree
