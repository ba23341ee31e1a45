import ClassAtlas.ClassIndex.Search
import Mathlib.Data.List.Basic
import Mathlib.Data.List.Infix

/-!
# What search patterns match

A pattern matches a text that is put together from a text of each of its pieces
(`Pattern.Matches`).  The matcher keeps a row, which says for each suffix of the text whether the
pattern read so far, from its end, matches it.  A row is what reading each suffix on its own
gives (`foldr_row`), and from this follows that the matcher decides `Matches` (`isMatch_iff`).

For the kinds of a search this comes to relations between texts, and for wildcards to `Glob`
(`SearchKind.isMatch_pieces_iff`), as long as no line feed stands in the text.
-/

namespace ClassAtlas

namespace Pattern

/-- The texts that a piece stands for. -/
inductive Piece.StandsFor : Piece → List Char → Prop where
  | literal (character : Char) : StandsFor (.literal character) [character]
  | anyOne {character : Char} (ordinary : isOrdinary character = true) :
      StandsFor .anyOne [character]
  | anyRun {run : List Char} (ordinary : ∀ character ∈ run, isOrdinary character = true) :
      StandsFor .anyRun run

/-- The text consists of one text for each piece, in order. -/
inductive Matches : List Piece → List Char → Prop where
  | nil : Matches [] []
  | cons {piece : Piece} {pattern : List Piece} {part rest : List Char}
      (stands : piece.StandsFor part) (matched : Matches pattern rest) :
      Matches (piece :: pattern) (part ++ rest)

variable {pattern left right : List Piece} {text : List Char}

/-! ## Rows -/

/-- A test of a character at the start of a text, followed by a test of the rest. -/
def oneBefore (test : Char → Bool) (next : List Char → Bool) : List Char → Bool
  | [] => false
  | character :: rest => test character && next rest

/-- A run of ordinary characters at the start of a text, followed by a test of the rest. -/
def runBefore (next : List Char → Bool) : List Char → Bool
  | [] => next []
  | character :: rest => next (character :: rest) || (isOrdinary character && runBefore next rest)

/-- A text of the piece at the start of a text, followed by a test of the rest. -/
def Piece.before (piece : Piece) (next : List Char → Bool) : List Char → Bool :=
  match piece with
  | .literal expected => oneBefore (· == expected) next
  | .anyOne => oneBefore isOrdinary next
  | .anyRun => runBefore next

theorem lastRow_eq (text : List Char) : lastRow text = text.tails.map List.isEmpty := by
  induction text with
  | nil => rfl
  | cons character text ih => exact congrArg (false :: ·) ih

/-- The first entry of a row is the one of the whole text. -/
theorem exists_map_tails (test : List Char → Bool) (text : List Char) :
    ∃ after, text.tails.map test = test text :: after := by
  cases text with
  | nil => exact ⟨[], rfl⟩
  | cons character text => exact ⟨text.tails.map test, rfl⟩

theorem stepRow_tails (test : Char → Bool) (next : List Char → Bool) (text : List Char) :
    stepRow test text (text.tails.map next) = text.tails.map (oneBefore test next) := by
  induction text with
  | nil => rfl
  | cons character text ih =>
      obtain ⟨after, row⟩ := exists_map_tails next text
      rw [stepRow, row] at ih
      rw [stepRow, List.tails_cons, List.map_cons, List.drop_one, List.tail_cons, row,
        List.zipWith_cons_cons, List.cons_append, List.map_cons, ← ih]
      rfl

theorem runRow_tails (next : List Char → Bool) (text : List Char) :
    runRow text (text.tails.map next) = text.tails.map (runBefore next) := by
  induction text with
  | nil => rfl
  | cons character text ih =>
      obtain ⟨after, row⟩ := exists_map_tails (runBefore next) text
      rw [List.tails_cons, List.map_cons, runRow, ih, row, List.map_cons, row]
      rfl

/-- The row of a pattern is what reading each suffix of the text on its own gives. -/
theorem foldr_row (pattern : List Piece) (text : List Char) :
    pattern.foldr (Piece.row text) (lastRow text) =
      text.tails.map (pattern.foldr Piece.before List.isEmpty) := by
  induction pattern with
  | nil => exact lastRow_eq text
  | cons piece pattern ih =>
      rw [List.foldr_cons, List.foldr_cons, ih]
      cases piece with
      | literal expected => exact stepRow_tails _ _ text
      | anyOne => exact stepRow_tails _ _ text
      | anyRun => exact runRow_tails _ text

theorem isMatch_eq (pattern : List Piece) (text : List Char) :
    isMatch pattern text = pattern.foldr Piece.before List.isEmpty text := by
  obtain ⟨after, row⟩ := exists_map_tails (pattern.foldr Piece.before List.isEmpty) text
  rw [isMatch, foldr_row, row, List.headD_cons]

/-! ## The matcher -/

/-- A character that passes the test stands before a text that passes the next one. -/
theorem oneBefore_eq_true {test : Char → Bool} {next : List Char → Bool} :
    oneBefore test next text = true ↔
      ∃ character rest, text = [character] ++ rest ∧ test character = true ∧ next rest = true := by
  cases text with
  | nil => simp [oneBefore]
  | cons character rest => simp [oneBefore]

/-- A run of ordinary characters stands before a text that passes the next test. -/
theorem runBefore_eq_true {next : List Char → Bool} :
    runBefore next text = true ↔
      ∃ run rest, text = run ++ rest ∧ (∀ character ∈ run, isOrdinary character = true) ∧
        next rest = true := by
  induction text with
  | nil => simp [runBefore]
  | cons character text ih =>
      rw [runBefore, Bool.or_eq_true, Bool.and_eq_true, ih]
      constructor
      · rintro (here | ⟨ordinary, run, rest, rfl, others, further⟩)
        · exact ⟨[], character :: text, rfl, by simp, here⟩
        · exact ⟨character :: run, rest, rfl, List.forall_mem_cons.2 ⟨ordinary, others⟩, further⟩
      · rintro ⟨run, rest, whole, ordinary, further⟩
        cases run with
        | nil =>
            rw [List.nil_append] at whole
            exact .inl (whole ▸ further)
        | cons first run =>
            cases whole
            obtain ⟨isFirst, others⟩ := List.forall_mem_cons.1 ordinary
            exact .inr ⟨isFirst, run, rest, rfl, others, further⟩

/-- A text that the piece stands for is read off the front. -/
theorem Piece.before_eq_true {piece : Piece} {next : List Char → Bool} :
    piece.before next text = true ↔
      ∃ part rest, text = part ++ rest ∧ piece.StandsFor part ∧ next rest = true := by
  cases piece with
  | literal expected =>
      rw [before, oneBefore_eq_true]
      constructor
      · rintro ⟨character, rest, rfl, same, further⟩
        rw [beq_iff_eq] at same
        exact ⟨[character], rest, rfl, same ▸ .literal character, further⟩
      · rintro ⟨part, rest, rfl, stands, further⟩
        cases stands
        exact ⟨expected, rest, rfl, beq_self_eq_true expected, further⟩
  | anyOne =>
      rw [before, oneBefore_eq_true]
      constructor
      · rintro ⟨character, rest, rfl, ordinary, further⟩
        exact ⟨[character], rest, rfl, .anyOne ordinary, further⟩
      · rintro ⟨part, rest, rfl, stands, further⟩
        cases stands with
        | anyOne ordinary => exact ⟨_, rest, rfl, ordinary, further⟩
  | anyRun =>
      rw [before, runBefore_eq_true]
      constructor
      · rintro ⟨run, rest, rfl, ordinary, further⟩
        exact ⟨run, rest, rfl, .anyRun ordinary, further⟩
      · rintro ⟨part, rest, rfl, stands, further⟩
        cases stands with
        | anyRun ordinary => exact ⟨part, rest, rfl, ordinary, further⟩

/-- The matcher finds a match exactly when there is one. -/
theorem isMatch_iff : isMatch pattern text = true ↔ Matches pattern text := by
  rw [isMatch_eq]
  induction pattern generalizing text with
  | nil =>
      rw [List.foldr_nil, List.isEmpty_iff]
      constructor
      · rintro rfl
        exact .nil
      · intro matched
        cases matched
        rfl
  | cons piece pattern ih =>
      rw [List.foldr_cons, Piece.before_eq_true]
      constructor
      · rintro ⟨part, rest, rfl, stands, further⟩
        exact .cons stands (ih.1 further)
      · intro matched
        cases matched with
        | cons stands further => exact ⟨_, _, rfl, stands, ih.2 further⟩

/-! ## Parts of patterns -/

/-- Patterns one after another match texts one after another. -/
theorem matches_append_iff :
    Matches (left ++ right) text ↔
      ∃ before after, text = before ++ after ∧ Matches left before ∧ Matches right after := by
  induction left generalizing text with
  | nil =>
      constructor
      · intro matched
        exact ⟨[], text, rfl, .nil, matched⟩
      · rintro ⟨before, after, rfl, matched, further⟩
        cases matched
        exact further
  | cons piece left ih =>
      constructor
      · intro matched
        cases matched with
        | cons stands matched =>
            obtain ⟨before, after, rfl, inLeft, inRight⟩ := ih.1 matched
            exact ⟨_, after, (List.append_assoc _ _ _).symm, .cons stands inLeft, inRight⟩
      · rintro ⟨before, after, rfl, matched, further⟩
        cases matched with
        | cons stands matched =>
            rw [List.append_assoc]
            exact .cons stands (ih.2 ⟨_, after, rfl, matched, further⟩)

/-- A literal pattern matches itself alone. -/
theorem matches_literal_iff {expected : List Char} :
    Matches (expected.map .literal) text ↔ text = expected := by
  induction expected generalizing text with
  | nil =>
      constructor
      · intro matched
        cases matched
        rfl
      · rintro rfl
        exact .nil
  | cons character expected ih =>
      constructor
      · intro matched
        cases matched with
        | cons stands matched =>
            cases stands
            rw [ih.1 matched, List.singleton_append]
      · rintro rfl
        exact .cons (.literal character) (ih.2 rfl)

/-- An open run matches every text of ordinary characters. -/
theorem matches_anyRun_iff :
    Matches [.anyRun] text ↔ ∀ character ∈ text, isOrdinary character = true := by
  constructor
  · intro matched
    cases matched with
    | cons stands matched =>
        cases matched
        cases stands with
        | anyRun ordinary =>
            rw [List.append_nil]
            exact ordinary
  · intro ordinary
    rw [← List.append_nil text]
    exact .cons (.anyRun ordinary) .nil

theorem matches_anyRun_cons_iff :
    Matches (.anyRun :: pattern) text ↔
      ∃ before after, text = before ++ after ∧
        (∀ character ∈ before, isOrdinary character = true) ∧ Matches pattern after := by
  rw [← List.singleton_append, matches_append_iff]
  simp only [matches_anyRun_iff]

end Pattern

/-! ## Kinds of searches -/

/-- A name that fits a wildcard pattern: a star stands for any run of characters, a question
mark for exactly one, and every other character for itself. -/
inductive Glob : List Char → List Char → Prop where
  | nil : Glob [] []
  | star {pattern rest : List Char} (run : List Char) (fits : Glob pattern rest) :
      Glob ('*' :: pattern) (run ++ rest)
  | question {pattern rest : List Char} (character : Char) (fits : Glob pattern rest) :
      Glob ('?' :: pattern) (character :: rest)
  | literal {pattern rest : List Char} {character : Char} (notStar : character ≠ '*')
      (notQuestion : character ≠ '?') (fits : Glob pattern rest) :
      Glob (character :: pattern) (character :: rest)

namespace SearchKind

open Pattern

variable {pattern simple : List Char}

/-- What a kind of search asks of a simple name. -/
def Wants (kind : SearchKind) (pattern simple : List Char) : Prop :=
  match kind with
  | .exact => simple = pattern
  | .beginning => pattern <+: simple
  | .ending => pattern <:+ simple
  | .containing => pattern <:+: simple
  | .wildcard => Glob pattern simple

theorem wildcardPiece_of_ne {character : Char} (notStar : character ≠ '*')
    (notQuestion : character ≠ '?') : wildcardPiece character = .literal character := by
  rw [wildcardPiece]
  · exact notStar
  · exact notQuestion

/-- Where all characters are ordinary, the pieces of a wildcard pattern match what fits it. -/
theorem matches_wildcard_iff (ordinary : ∀ character ∈ simple, isOrdinary character = true) :
    Matches (pattern.map wildcardPiece) simple ↔ Glob pattern simple := by
  constructor
  · intro matched
    induction pattern generalizing simple with
    | nil =>
        cases matched
        exact .nil
    | cons character pattern ih =>
        rw [List.map_cons] at matched
        generalize isPiece : wildcardPiece character = piece at matched
        cases matched with
        | cons stands matched =>
            have fits := ih (fun other member => ordinary other (List.mem_append_right _ member))
              matched
            unfold wildcardPiece at isPiece
            split at isPiece
            · subst isPiece
              exact .star _ fits
            · subst isPiece
              cases stands with
              | @anyOne found => exact .question found fits
            · rename_i notStar notQuestion
              subst isPiece
              cases stands
              exact .literal notStar notQuestion fits
  · intro fits
    induction fits with
    | nil => exact .nil
    | star run fits ih =>
        obtain ⟨inRun, inRest⟩ := List.forall_mem_append.1 ordinary
        exact .cons (.anyRun inRun) (ih inRest)
    | question character fits ih =>
        obtain ⟨first, inRest⟩ := List.forall_mem_cons.1 ordinary
        exact .cons (.anyOne first) (ih inRest)
    | literal notStar notQuestion fits ih =>
        rw [List.map_cons, wildcardPiece_of_ne notStar notQuestion]
        exact .cons (.literal _) (ih (List.forall_mem_cons.1 ordinary).2)

/-- The pieces of a search match the names that its kind asks for. -/
theorem isMatch_pieces_iff (kind : SearchKind) (plain : '\n' ∉ simple) :
    isMatch (kind.pieces pattern) simple = true ↔ kind.Wants pattern simple := by
  have ordinary : ∀ character ∈ simple, isOrdinary character = true := by
    intro character member
    rw [isOrdinary, bne_iff_ne]
    rintro rfl
    exact plain member
  rw [isMatch_iff]
  cases kind with
  | exact => exact matches_literal_iff
  | beginning =>
      simp only [pieces, matches_append_iff, matches_literal_iff, matches_anyRun_iff]
      constructor
      · rintro ⟨before, after, rfl, rfl, -⟩
        exact List.prefix_append _ _
      · rintro ⟨after, rfl⟩
        exact ⟨pattern, after, rfl, rfl, (List.forall_mem_append.1 ordinary).2⟩
  | ending =>
      simp only [pieces, matches_anyRun_cons_iff, matches_literal_iff]
      constructor
      · rintro ⟨before, after, rfl, -, rfl⟩
        exact List.suffix_append _ _
      · rintro ⟨before, rfl⟩
        exact ⟨before, pattern, rfl, (List.forall_mem_append.1 ordinary).1, rfl⟩
  | containing =>
      rw [pieces, matches_anyRun_cons_iff]
      simp only [matches_append_iff, matches_literal_iff, matches_anyRun_iff]
      constructor
      · rintro ⟨before, after, rfl, -, middle, rest, rfl, rfl, -⟩
        exact ⟨before, rest, by simp⟩
      · rintro ⟨before, rest, rfl⟩
        rw [List.append_assoc] at ordinary ⊢
        obtain ⟨inBefore, inAfter⟩ := List.forall_mem_append.1 ordinary
        exact ⟨before, pattern ++ rest, rfl, inBefore, pattern, rest, rfl, rfl,
          (List.forall_mem_append.1 inAfter).2⟩
  | wildcard => exact matches_wildcard_iff ordinary

end SearchKind
end ClassAtlas
