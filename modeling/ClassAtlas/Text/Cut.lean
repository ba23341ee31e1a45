/-!
# Cutting text

`cut mark text` finds the first occurrence of a mark and gives the text on both
sides of it.  The main statements: the two sides and the mark make up the text, and
no occurrence of the mark starts inside the first side.
-/

namespace ClassAtlas.Text

/-- The text before and after the first occurrence of `mark`. -/
def cut (mark : List Char) : List Char → Option (List Char × List Char)
  | [] => if mark.isEmpty then some ([], []) else none
  | character :: rest =>
      match mark.isPrefixOf? (character :: rest) with
      | some after => some ([], after)
      | none => (cut mark rest).map fun (before, after) => (character :: before, after)

theorem isPrefixOf?_eq_some {mark text after : List Char}
    (found : mark.isPrefixOf? text = some after) : text = mark ++ after := by
  induction mark generalizing text with
  | nil =>
      have all : some text = some after := found
      exact Option.some.inj all
  | cons character mark ih =>
      cases text with
      | nil => exact absurd found.symm (Option.some_ne_none after)
      | cons head tail =>
          have step : (if character == head then mark.isPrefixOf? tail else none) =
              some after := found
          split at step
          · rename_i equal
            rw [ih step, eq_of_beq equal]
            rfl
          · exact absurd step.symm (Option.some_ne_none after)

/-- The two sides and the mark make up the text. -/
theorem cut_eq_some {mark text before after : List Char}
    (found : cut mark text = some (before, after)) : text = before ++ mark ++ after := by
  induction text generalizing before with
  | nil =>
      simp only [cut] at found
      split at found
      · rename_i empty
        simp_all
      · simp at found
  | cons character rest ih =>
      simp only [cut] at found
      split at found
      · rename_i remaining isMark
        simp only [Option.some.injEq, Prod.mk.injEq] at found
        obtain ⟨rfl, rfl⟩ := found
        simpa using isPrefixOf?_eq_some isMark
      · simp only [Option.map_eq_some_iff, Prod.mk.injEq] at found
        obtain ⟨⟨inner, outer⟩, found, rfl, rfl⟩ := found
        rw [ih found]
        simp

theorem length_of_cut {mark text before after : List Char}
    (found : cut mark text = some (before, after)) :
    text.length = before.length + mark.length + after.length := by
  rw [cut_eq_some found]
  simp [Nat.add_assoc]

/-- `part` occurs somewhere in `text`. -/
def contains (part text : List Char) : Bool :=
  (cut part text).isSome

/-- The text without `mark` at its start, or the text itself. -/
def withoutStart (mark text : List Char) : List Char :=
  (mark.isPrefixOf? text).getD text

/-- The rest of the text before `mark`, when the text ends with it. -/
def beforeEnd? (mark text : List Char) : Option (List Char) :=
  (mark.reverse.isPrefixOf? text.reverse).map List.reverse

/-- The text before and after the last occurrence of a character. -/
def cutLast (mark : Char) (text : List Char) : Option (List Char × List Char) :=
  (cut [mark] text.reverse).map fun (after, before) => (before.reverse, after.reverse)

/-- Drops the character from the end of the text as often as it stands there. -/
def dropEnd (character : Char) (text : List Char) : List Char :=
  (text.reverse.dropWhile (· == character)).reverse

/-- The pieces between blanks, none of them empty. -/
def words (isSpace : Char → Bool) (text : List Char) : List (List Char) :=
  (text.splitOnP isSpace).filter (!·.isEmpty)

/-- The line without the carriage return that ends it. -/
def dropReturn (line : List Char) : List Char :=
  (beforeEnd? ['\r'] line).getD line

/-- The lines of a text.  A line ends at a line feed, of which one preceding
carriage return is part; a last line without a line feed is kept as it is. -/
def lines (text : List Char) : List (List Char) :=
  ended (text.splitOn '\n')
where
  /-- All pieces but the last were ended by a line feed. -/
  ended : List (List Char) → List (List Char)
    | [] => []
    | [last] => if last.isEmpty then [] else [last]
    | line :: next :: rest => dropReturn line :: ended (next :: rest)

/-- The number of bytes that the text takes in UTF-8. -/
def byteLength (text : List Char) : Nat :=
  text.foldl (fun total character => total + character.utf8Size) 0

theorem foldl_utf8Size (text : List Char) (start : Nat) :
    text.foldl (fun total character => total + character.utf8Size) start =
      start + byteLength text := by
  induction text generalizing start with
  | nil => simp [byteLength]
  | cons character rest ih =>
      simp only [byteLength, List.foldl_cons]
      rw [ih, ih (0 + character.utf8Size)]
      omega

@[simp] theorem byteLength_nil : byteLength [] = 0 := rfl

@[simp] theorem byteLength_cons (character : Char) (rest : List Char) :
    byteLength (character :: rest) = character.utf8Size + byteLength rest := by
  simp only [byteLength, List.foldl_cons]
  rw [foldl_utf8Size, Nat.zero_add]
  rfl

@[simp] theorem byteLength_append (left right : List Char) :
    byteLength (left ++ right) = byteLength left + byteLength right := by
  induction left with
  | nil => simp
  | cons character rest ih => simp [ih, Nat.add_assoc]

end ClassAtlas.Text
