import ClassAtlas.Transcript
import ClassAtlas.Proofs.Text.Words
import Mathlib.Tactic.SplitIfs

/-!
# Coloured lines

A console colours its lines by sequences that may stand between any two characters.  Reading
takes them out (`withoutColours_of_painted`), and the carriage return before a line feed is
blank whether it is taken as part of the line or not (`ofRaw_dropReturn`).  So the lines of a
transcript can be read one by one from what each of them was before it was coloured
(`linesOf_flatMap`).
-/

namespace ClassAtlas.Transcript

open Text (isBlank)

/-! ## Colour sequences -/

/-- A sequence that switches a colour on or off. -/
structure Colour where
  parameters : List Char
  letter : Char
  areParameters : ∀ character ∈ parameters,
    (Text.isAsciiDigit character || character == ';') = true
  isLetter : Text.isAsciiLetter letter = true

/-- The characters of the sequence. -/
def Colour.text (colour : Colour) : List Char :=
  '\x1b' :: '[' :: (colour.parameters ++ [colour.letter])

/-- `Painted plain painted` says that `painted` is `plain` with colour sequences inserted
between its characters. -/
inductive Painted : List Char → List Char → Prop
  | done : Painted [] []
  | keep (character : Char) {plain painted : List Char} (rest : Painted plain painted) :
      Painted (character :: plain) (character :: painted)
  | colour (colour : Colour) {plain painted : List Char} (rest : Painted plain painted) :
      Painted plain (colour.text ++ painted)

/-- What is left plain may stand before what is painted. -/
theorem Painted.append_left (front : List Char) {plain painted : List Char}
    (rest : Painted plain painted) : Painted (front ++ plain) (front ++ painted) := by
  induction front with
  | nil => exact rest
  | cons character front ih => exact .keep character ih

theorem Painted.refl (text : List Char) : Painted text text := by
  simpa using append_left text .done

theorem not_isParameter_of_isLetter {letter : Char} (isLetter : Text.isAsciiLetter letter = true) :
    (Text.isAsciiDigit letter || letter == ';') = false := by
  rw [Bool.eq_false_iff]
  intro isParameter
  simp only [Text.isAsciiLetter, Text.isAsciiDigit, Bool.or_eq_true, Bool.and_eq_true,
    decide_eq_true_eq, beq_iff_eq, Char.le_def, UInt32.le_iff_toNat_le] at isLetter isParameter
  rcases isParameter with ⟨_, high⟩ | rfl
  · have digits : ('9').val.toNat = 57 := rfl
    have small : ('a').val.toNat = 97 := rfl
    have large : ('A').val.toNat = 65 := rfl
    omega
  · revert isLetter
    decide

/-- The sequence ends at its letter. -/
theorem Colour.afterColour?_text (colour : Colour) (rest : List Char) :
    afterColour? (colour.parameters ++ [colour.letter] ++ rest) = some rest := by
  have stop := not_isParameter_of_isLetter colour.isLetter
  rw [afterColour?, List.append_assoc, List.dropWhile_append_of_pos colour.areParameters,
    List.singleton_append, List.dropWhile_cons_of_neg (by simp [stop])]
  exact if_pos colour.isLetter

/-- No line break is part of a colour sequence. -/
theorem Colour.newline_not_mem_text (colour : Colour) : '\n' ∉ colour.text := by
  intro member
  simp only [Colour.text, List.mem_cons, List.mem_append, List.not_mem_nil, or_false] at member
  rcases member with isEscape | isBracket | isParameter | isLetter
  · revert isEscape
    decide
  · revert isBracket
    decide
  · have isParameter := colour.areParameters '\n' isParameter
    revert isParameter
    decide
  · have isLetter : Text.isAsciiLetter '\n' = true := isLetter ▸ colour.isLetter
    revert isLetter
    decide

theorem Painted.newline_not_mem {plain painted : List Char} (paint : Painted plain painted)
    (single : '\n' ∉ plain) : '\n' ∉ painted := by
  induction paint with
  | done => exact single
  | keep character _ ih =>
      rw [List.mem_cons, not_or] at single ⊢
      exact ⟨single.1, ih single.2⟩
  | colour colour _ ih =>
      rw [List.mem_append, not_or]
      exact ⟨colour.newline_not_mem_text, ih single⟩

/-! ## Taking colours out -/

theorem withoutColours_cons {character : Char} (plain : character ≠ '\x1b') (text : List Char) :
    withoutColours (character :: text) = character :: withoutColours text := by
  rw [withoutColours]
  intro rest isEscape
  exact absurd isEscape plain

/-- A text without escape characters is kept, whatever follows it. -/
theorem withoutColours_append {front : List Char} (plain : '\x1b' ∉ front) (text : List Char) :
    withoutColours (front ++ text) = front ++ withoutColours text := by
  induction front with
  | nil => rfl
  | cons character front ih =>
      rw [List.mem_cons, not_or] at plain
      rw [List.cons_append, withoutColours_cons (Ne.symm plain.1), ih plain.2, List.cons_append]

theorem withoutColours_colour (colour : Colour) (text : List Char) :
    withoutColours (colour.text ++ text) = withoutColours text := by
  rw [Colour.text, List.cons_append, List.cons_append, withoutColours]
  split
  · rename_i after found
    rw [colour.afterColour?_text] at found
    rw [Option.some.inj found]
  · rename_i missing
    rw [colour.afterColour?_text] at missing
    cases missing

/-- What is left of a coloured text is the text. -/
theorem withoutColours_of_painted {plain painted : List Char} (paint : Painted plain painted)
    (clean : '\x1b' ∉ plain) : withoutColours painted = plain := by
  induction paint with
  | done => rw [withoutColours]
  | keep character _ ih =>
      rw [List.mem_cons, not_or] at clean
      rw [withoutColours_cons (Ne.symm clean.1), ih clean.2]
  | colour colour _ ih => rw [withoutColours_colour, ih clean]

/-- A carriage return neither is part of a colour sequence nor ends one. -/
theorem afterColour?_append_return (text : List Char) :
    afterColour? (text ++ ['\r']) = (afterColour? text).map (· ++ ['\r']) := by
  simp only [afterColour?, List.dropWhile_append]
  cases rest : text.dropWhile fun character =>
      Text.isAsciiDigit character || character == ';' with
  | nil => rfl
  | cons letter rest =>
      simp only [List.isEmpty_cons, Bool.false_eq_true, if_false, List.cons_append]
      split_ifs <;> rfl

theorem withoutColours_append_return (text : List Char) :
    withoutColours (text ++ ['\r']) = withoutColours text ++ ['\r'] := by
  fun_induction withoutColours text with
  | case1 => simp [withoutColours]
  | case2 rest after found ih =>
      have longer := afterColour?_append_return rest
      rw [found] at longer
      rw [List.cons_append, List.cons_append, withoutColours]
      split
      · rename_i after' found'
        rw [longer] at found'
        rw [← Option.some.inj found', ih]
      · rename_i missing
        rw [longer] at missing
        cases missing
  | case3 rest missing ih =>
      have longer := afterColour?_append_return rest
      rw [missing] at longer
      rw [List.cons_append, List.cons_append, withoutColours]
      split
      · rename_i after' found'
        rw [longer] at found'
        cases found'
      · rw [← List.cons_append, ih, List.cons_append]
  | case4 character rest other ih =>
      rw [List.cons_append, withoutColours]
      · rw [ih, List.cons_append]
      · intro text isEscape begins
        cases rest with
        | nil =>
            rw [List.nil_append] at begins
            cases begins
        | cons head rest =>
            rw [List.cons_append, List.cons.injEq] at begins
            exact other rest isEscape (by rw [begins.1])

/-! ## Lines of a transcript -/

/-- Reads a line as it is printed. -/
def Line.ofRaw (line : List Char) : Line :=
  Line.ofText (Text.trimEnd (withoutColours line))

theorem linesOf_eq (output : String) :
    linesOf output = (Text.lines output.toList).map Line.ofRaw := rfl

/-- A carriage return at the end of a line does not count. -/
theorem ofRaw_append_return (line : List Char) : Line.ofRaw (line ++ ['\r']) = Line.ofRaw line := by
  rw [Line.ofRaw, Line.ofRaw, withoutColours_append_return, Text.trimEnd_append_blank (by decide)]

theorem ofRaw_dropReturn (line : List Char) :
    Line.ofRaw (Text.dropReturn line) = Line.ofRaw line := by
  rcases Text.dropReturn_eq_or line with same | whole
  · rw [same]
  · have left := ofRaw_append_return (Text.dropReturn line)
    rw [← whole] at left
    exact left.symm

theorem ofRaw_of_painted {plain painted : List Char} (paint : Painted plain painted)
    (clean : '\x1b' ∉ plain) : Line.ofRaw painted = Line.ofText (Text.trimEnd plain) := by
  rw [Line.ofRaw, withoutColours_of_painted paint clean]

/-- Each text that is ended by a line feed is read on its own. -/
theorem linesOf_flatMap {written : List (List Char)}
    (single : ∀ line ∈ written, '\n' ∉ line) :
    linesOf (String.ofList (written.flatMap (· ++ ['\n']))) = written.map Line.ofRaw := by
  rw [linesOf_eq, String.toList_ofList, Text.lines_flatMap single, List.map_map]
  apply List.map_congr_left
  intro line _
  exact ofRaw_dropReturn line

end ClassAtlas.Transcript
