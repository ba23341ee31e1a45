import ClassAtlas.Proofs.Transcript.Recovery

/-!
# Joined transcripts

What a text says is said by its lines, one by one, and lines of no interest say nothing (`said`).
So a line feed takes a transcript apart into what stands on its two sides, and of two texts that
are put together only the line in which they meet is read anew (`said_append`).
-/

namespace ClassAtlas.Transcript

/-! ## What the lines say -/

/-- What the lines of a text say. -/
def said (text : List Char) : List Line :=
  ((text.splitOn '\n').map Line.ofRaw).filter (· ≠ .other)

/-- Lines of no interest add nothing. -/
theorem foldl_add_filter (lines : List Line) (known : Transcript) :
    (lines.filter (· ≠ .other)).foldl add known = lines.foldl add known := by
  induction lines generalizing known with
  | nil => rfl
  | cons line lines ih =>
      by_cases idle : line = .other
      · subst idle
        exact ih known
      · rw [List.filter_cons_of_pos (by simpa using idle), List.foldl_cons, List.foldl_cons, ih]

theorem ofRaw_nil : Line.ofRaw [] = .other := by
  rw [Line.ofRaw, withoutColours]
  rfl

/-- Neither the carriage returns at the ends of lines nor the end of the text matter. -/
theorem foldl_add_ended (pieces : List (List Char)) (known : Transcript) :
    ((Text.lines.ended pieces).map Line.ofRaw).foldl add known =
      (pieces.map Line.ofRaw).foldl add known := by
  fun_induction Text.lines.ended pieces generalizing known with
  | case1 => rfl
  | case2 last empty =>
      rw [List.isEmpty_iff.1 empty, List.map_singleton, ofRaw_nil]
      rfl
  | case3 last => rfl
  | case4 line next rest ih =>
      rw [List.map_cons, List.map_cons, List.foldl_cons, List.foldl_cons, ofRaw_dropReturn, ih]

/-- A transcript is what the lines of the output say. -/
theorem ofOutput_eq (output : String) : ofOutput output = (said output.toList).foldl add {} := by
  rw [said, foldl_add_filter, ofOutput, linesOf_eq, Text.lines, foldl_add_ended]

@[simp] theorem said_nil : said [] = [] := by
  rw [said, List.splitOn_nil, List.map_singleton, ofRaw_nil]
  rfl

/-- A line feed takes a text apart. -/
theorem said_append_newline (left right : List Char) :
    said (left ++ '\n' :: right) = said left ++ said right := by
  rw [said, List.splitOn_append_cons_self, List.map_append, List.filter_append]
  rfl

theorem said_cons_newline (text : List Char) : said ('\n' :: text) = said text := by
  simpa using said_append_newline [] text

/-- A text without line feeds is one line. -/
theorem said_of_single {line : List Char} (single : '\n' ∉ line) :
    said line = [Line.ofRaw line].filter (· ≠ .other) := by
  rw [said, List.splitOn_eq_singleton single, List.map_singleton]

/-- Lines with line feeds between them say what each of them says. -/
theorem said_intercalate (lines : List (List Char)) :
    said (['\n'].intercalate lines) = lines.flatMap said := by
  induction lines with
  | nil => exact said_nil
  | cons line lines ih =>
      cases lines with
      | nil => rw [List.intercalate_singleton, List.flatMap_singleton]
      | cons next lines =>
          rw [List.intercalate_cons_cons, List.append_assoc, List.singleton_append,
            said_append_newline, ih]
          rfl

/-- Lines of an output are read one by one. -/
theorem ofOutput_intercalate (lines : List String) :
    ofOutput ("\n".intercalate lines) = (lines.flatMap (said ·.toList)).foldl add {} := by
  have newline : "\n".toList = ['\n'] := rfl
  rw [ofOutput_eq, String.toList_intercalate, newline, said_intercalate, List.flatMap_map]

/-! ## Where two texts meet -/

/-- The lines of a text that are ended by a line feed. -/
def finished (text : List Char) : List Char :=
  (text.reverse.dropWhile (· != '\n')).reverse

/-- What stands behind the last line feed of a text. -/
def unfinished (text : List Char) : List Char :=
  (text.reverse.takeWhile (· != '\n')).reverse

/-- What stands before the first line feed of a text. -/
def firstLine (text : List Char) : List Char :=
  text.takeWhile (· != '\n')

/-- A text from its first line feed on. -/
def afterFirstLine (text : List Char) : List Char :=
  text.dropWhile (· != '\n')

theorem finished_append_unfinished (text : List Char) : finished text ++ unfinished text = text := by
  rw [finished, unfinished, ← List.reverse_append, List.takeWhile_append_dropWhile,
    List.reverse_reverse]

theorem firstLine_append_afterFirstLine (text : List Char) :
    firstLine text ++ afterFirstLine text = text :=
  List.takeWhile_append_dropWhile

/-- Nothing is read across the end of a line. -/
theorem said_finished_append (text more : List Char) :
    said (finished text ++ more) = said (finished text) ++ said more := by
  have ends := List.head?_dropWhile_not (· != '\n') text.reverse
  rw [finished]
  cases rest : text.reverse.dropWhile (· != '\n') with
  | nil => simp
  | cons last front =>
      rw [rest] at ends
      obtain rfl : last = '\n' := by simpa using ends
      rw [List.reverse_cons, List.append_assoc, List.singleton_append, said_append_newline,
        said_append_newline, said_nil, List.append_nil]

theorem said_append_afterFirstLine (front text : List Char) :
    said (front ++ afterFirstLine text) = said front ++ said (afterFirstLine text) := by
  have begins := List.head?_dropWhile_not (· != '\n') text
  rw [afterFirstLine]
  cases rest : text.dropWhile (· != '\n') with
  | nil => simp
  | cons first back =>
      rw [rest] at begins
      obtain rfl : first = '\n' := by simpa using begins
      rw [said_append_newline, said_cons_newline]

/-- Of two texts that are put together only the line in which they meet is read anew. -/
theorem said_append (front back : List Char) :
    said (front ++ back) = said (finished front) ++
      (said (unfinished front ++ firstLine back) ++ said (afterFirstLine back)) := by
  calc said (front ++ back)
    _ = said (finished front ++
          ((unfinished front ++ firstLine back) ++ afterFirstLine back)) := by
        conv_lhs => rw [← finished_append_unfinished front,
          ← firstLine_append_afterFirstLine back]
        simp only [List.append_assoc]
    _ = said (finished front) ++
          (said (unfinished front ++ firstLine back) ++ said (afterFirstLine back)) := by
        rw [said_finished_append, said_append_afterFirstLine]

/-! ## Listed dependencies -/

/-- The dependencies that are read off a text. -/
def listedIn (text : List Char) : List Dependency :=
  (ofOutput (String.ofList text)).dependencies

theorem listedIn_eq (text : List Char) : listedIn text = (said text).filterMap Line.dependency? := by
  rw [listedIn, ofOutput_eq, foldl_add_empty, String.toList_ofList]

@[simp] theorem listedIn_nil : listedIn [] = [] := by
  rw [listedIn_eq, said_nil, List.filterMap_nil]

/-- What is listed in two texts that are put together: in the ended lines of the first one, in the
line in which they meet, and in the other lines of the second one. -/
theorem listedIn_append (front back : List Char) :
    listedIn (front ++ back) = listedIn (finished front) ++
      (listedIn (unfinished front ++ firstLine back) ++ listedIn (afterFirstLine back)) := by
  simp only [listedIn_eq, said_append front, List.filterMap_append]

theorem listedIn_finished (text : List Char) :
    listedIn text = listedIn (finished text) ++ listedIn (unfinished text) := by
  have whole := listedIn_append text []
  simpa [firstLine, afterFirstLine] using whole

theorem listedIn_firstLine (text : List Char) :
    listedIn text = listedIn (firstLine text) ++ listedIn (afterFirstLine text) := by
  have whole := listedIn_append [] text
  simpa [finished, unfinished] using whole

/-- Two texts that are put together list what each of them lists exactly when the line in which
they meet does. -/
theorem listedIn_append_iff (front back : List Char) :
    listedIn (front ++ back) = listedIn front ++ listedIn back ↔
      listedIn (unfinished front ++ firstLine back) =
        listedIn (unfinished front) ++ listedIn (firstLine back) := by
  rw [listedIn_append, listedIn_finished front, listedIn_firstLine back, List.append_assoc,
    List.append_cancel_left_eq, ← List.append_assoc (listedIn (unfinished front)),
    List.append_cancel_right_eq]

end ClassAtlas.Transcript
