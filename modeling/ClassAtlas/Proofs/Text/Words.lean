import ClassAtlas.Text.WordCharacter
import ClassAtlas.Proofs.Text.Cut
import ClassAtlas.Proofs.Text.Blank
import Mathlib.Data.List.DropRight

/-!
# Words and lines

A text is read by its words where the blanks between them do not matter, and by its lines
where each line is read on its own.  A blank separates words whatever stands on its sides
(`words_append_blank`), and texts that are each ended by a line feed are the lines of what they
make together (`lines_flatMap`).
-/

namespace ClassAtlas.Text

/-! ## Blanks at the ends -/

/-- No character of the text is blank. -/
def IsSolid (text : List Char) : Prop := ∀ character ∈ text, isBlank character = false

instance (text : List Char) : Decidable (IsSolid text) :=
  List.decidableBAll (fun character => isBlank character = false) text

/-- The text is empty or begins with a blank, so that no word runs on into it. -/
def AtBlank (text : List Char) : Prop := ∀ character ∈ text.head?, isBlank character = true

theorem atBlank_cons {blank : Char} (isBlank : isBlank blank = true) (text : List Char) :
    AtBlank (blank :: text) := by
  intro character member
  cases member
  exact isBlank

theorem atBlank_append_of_blank {blanks : List Char} (blank : isBlankText blanks = true)
    (nonempty : blanks ≠ []) (text : List Char) : AtBlank (blanks ++ text) := by
  obtain ⟨first, others, rfl⟩ := List.exists_cons_of_ne_nil nonempty
  rw [isBlankText, List.all_cons, Bool.and_eq_true] at blank
  exact atBlank_cons blank.1 _

theorem atBlank_dropWhile (text : List Char) :
    AtBlank (text.dropWhile fun character => !isBlank character) := by
  intro character member
  have stopped := List.head?_dropWhile_not (fun character => !isBlank character) text
  rw [Option.mem_def.1 member] at stopped
  simpa using stopped

theorem trimStart_cons_blank {blank : Char} (isBlank : isBlank blank = true) (text : List Char) :
    trimStart (blank :: text) = trimStart text :=
  List.dropWhile_cons_of_pos isBlank

theorem trimStart_cons_solid {character : Char} (solid : isBlank character = false)
    (text : List Char) : trimStart (character :: text) = character :: text :=
  List.dropWhile_cons_of_neg (by simp [solid])

theorem trimEnd_append_blank {blank : Char} (isBlank : isBlank blank = true) (text : List Char) :
    trimEnd (text ++ [blank]) = trimEnd text := by
  rw [trimEnd, List.reverse_append, List.reverse_singleton, List.singleton_append,
    List.dropWhile_cons_of_pos isBlank, ← trimEnd]

/-- What stands before a character that is not blank is kept. -/
theorem trimEnd_append_solid {character : Char} (solid : isBlank character = false)
    (front back : List Char) :
    trimEnd (front ++ character :: back) = front ++ character :: trimEnd back := by
  simp only [trimEnd, List.reverse_append, List.reverse_cons, List.append_assoc,
    List.singleton_append, List.dropWhile_append]
  split
  · rename_i allBlank
    rw [List.isEmpty_iff.1 allBlank, List.dropWhile_cons_of_neg (by simp [solid])]
    simp
  · simp

theorem trimEnd_cons_solid {character : Char} (solid : isBlank character = false)
    (text : List Char) : trimEnd (character :: text) = character :: trimEnd text :=
  trimEnd_append_solid solid [] text

/-- A word is kept, and all that stands before it. -/
theorem trimEnd_append_word {word : List Char} (nonempty : word ≠ []) (solid : IsSolid word)
    (front back : List Char) :
    trimEnd (front ++ (word ++ back)) = front ++ (word ++ trimEnd back) := by
  have last := solid _ (List.getLast_mem nonempty)
  have kept := trimEnd_append_solid last (front ++ word.dropLast) back
  have whole := List.dropLast_append_getLast nonempty
  calc trimEnd (front ++ (word ++ back))
    _ = trimEnd (front ++ word.dropLast ++ word.getLast nonempty :: back) := by
        conv_lhs => rw [← whole]
        simp
    _ = front ++ word.dropLast ++ word.getLast nonempty :: trimEnd back := kept
    _ = front ++ (word ++ trimEnd back) := by
        conv_rhs => rw [← whole]
        simp

/-- What stands after blanks at the start is not changed by them. -/
theorem trimStart_append_of_blank {blanks : List Char} (blank : isBlankText blanks = true)
    (text : List Char) : trimStart (blanks ++ text) = trimStart text :=
  List.dropWhile_append_of_pos (List.all_eq_true.1 blank)

/-- A character that is not blank is kept, and all that stands after it. -/
theorem trimStart_append_solid {character : Char} (solid : isBlank character = false)
    (front back : List Char) :
    trimStart (front ++ character :: back) = trimStart front ++ character :: back := by
  rw [trimStart, List.dropWhile_append]
  split
  · rename_i allBlank
    rw [trimStart, List.isEmpty_iff.1 allBlank, List.dropWhile_cons_of_neg (by simp [solid])]
    rfl
  · rfl

theorem trimEnd_append_of_blank {blanks : List Char} (blank : isBlankText blanks = true)
    (text : List Char) : trimEnd (text ++ blanks) = trimEnd text := by
  rw [trimEnd, List.reverse_append, List.dropWhile_append_of_pos, ← trimEnd]
  intro character member
  exact List.all_eq_true.1 blank character (List.mem_reverse.1 member)

/-- Only blanks are taken off the end of a text. -/
theorem exists_eq_trimEnd_append (text : List Char) :
    ∃ blanks, isBlankText blanks = true ∧ text = trimEnd text ++ blanks := by
  refine ⟨(text.reverse.takeWhile isBlank).reverse, ?_, ?_⟩
  · rw [isBlankText, List.all_eq_true]
    intro character member
    exact List.mem_takeWhile_imp (List.mem_reverse.1 member)
  · rw [trimEnd, ← List.reverse_append, List.takeWhile_append_dropWhile, List.reverse_reverse]

theorem trim_append_of_blank {blanks : List Char} (blank : isBlankText blanks = true)
    (text : List Char) : trim (text ++ blanks) = trim text := by
  rw [trim, trimStart, List.dropWhile_append]
  split
  · rename_i allBlank
    have none : blanks.dropWhile isBlank = [] := trimStart_of_blank blank
    rw [none, trim, trimStart, List.isEmpty_iff.1 allBlank]
  · exact trimEnd_append_of_blank blank _

theorem trim_of_blank_append {blanks : List Char} (blank : isBlankText blanks = true)
    (text : List Char) : trim (blanks ++ text) = trim text := by
  rw [trim, trimStart_append_of_blank blank, ← trim]

/-- Blanks at the start of a text are left out once. -/
theorem trim_trimStart_append (text more : List Char) :
    trim (trimStart text ++ more) = trim (text ++ more) := by
  induction text with
  | nil => rfl
  | cons character text ih =>
      by_cases blank : isBlank character = true
      · rw [trimStart_cons_blank blank, ih, List.cons_append, trim, trim,
          trimStart_cons_blank blank]
      · rw [trimStart_cons_solid (by simpa using blank)]

@[simp] theorem trim_trimStart (text : List Char) : trim (trimStart text) = trim text := by
  have same := trim_trimStart_append text []
  rwa [List.append_nil, List.append_nil] at same

@[simp] theorem trim_trimEnd (text : List Char) : trim (trimEnd text) = trim text := by
  obtain ⟨blanks, blank, whole⟩ := exists_eq_trimEnd_append text
  conv_rhs => rw [whole, trim_append_of_blank blank]

@[simp] theorem trim_trim (text : List Char) : trim (trim text) = trim text :=
  (trim_trimEnd (trimStart text)).trans (trim_trimStart text)

@[simp] theorem trimStart_trimStart (text : List Char) :
    trimStart (trimStart text) = trimStart text :=
  List.dropWhile_idempotent isBlank text

/-- A character that is not blank is kept with the text around it. -/
theorem trim_append_solid {character : Char} (solid : isBlank character = false)
    (front back : List Char) :
    trim (front ++ character :: back) = trimStart front ++ character :: trimEnd back := by
  rw [trim, trimStart_append_solid solid, trimEnd_append_solid solid]

theorem trimEnd_isPrefix (text : List Char) : trimEnd text <+: text := by
  have reversed := List.reverse_prefix.2 (List.dropWhile_suffix (l := text.reverse) isBlank)
  rwa [List.reverse_reverse] at reversed

theorem not_infix_trimEnd {mark text : List Char} (absent : ¬mark <:+: text) :
    ¬mark <:+: trimEnd text :=
  fun occurs => absent (occurs.trans (trimEnd_isPrefix text).isInfix)

/-- A mark without blanks is not touched by trimming. -/
theorem isInfix_trimEnd {mark text : List Char} (nonempty : mark ≠ []) (solid : IsSolid mark)
    (occurs : mark <:+: text) : mark <:+: trimEnd text := by
  obtain ⟨front, back, rfl⟩ := occurs
  rw [List.append_assoc, trimEnd_append_word nonempty solid]
  exact (List.prefix_append mark _).isInfix.trans (List.suffix_append front _).isInfix

/-- Blanks at the end of a text are left behind the mark. -/
theorem cut_trimEnd {mark : List Char} (nonempty : mark ≠ []) (solid : IsSolid mark)
    (text : List Char) :
    cut mark (trimEnd text) =
      (cut mark text).map fun (before, after) => (before, trimEnd after) := by
  cases found : cut mark text with
  | none => exact cut_eq_none (not_infix_trimEnd (not_infix_of_cut nonempty found))
  | some sides =>
      obtain ⟨before, after⟩ := sides
      have whole := cut_eq_some found
      rw [List.append_assoc] at whole
      rw [whole, trimEnd_append_word nonempty solid]
      exact cut_append_mark nonempty (not_infix_before_of_cut nonempty found) _

theorem trimStart_append_isSuffix (text more : List Char) :
    trimStart text ++ more <:+ text ++ more :=
  List.suffix_append_self_iff.2 (List.dropWhile_suffix isBlank)

theorem trim_isInfix (text : List Char) : trim text <:+: text :=
  (trimEnd_isPrefix (trimStart text)).isInfix.trans (List.dropWhile_suffix isBlank).isInfix

/-- A text that neither begins nor ends with a blank. -/
structure IsTrimmed (text : List Char) : Prop where
  begins : ∀ character ∈ text.head?, isBlank character = false
  ends : ∀ character ∈ text.getLast?, isBlank character = false

theorem isTrimmed_trim (text : List Char) : IsTrimmed (trim text) := by
  constructor
  · intro character first
    have start : character ∈ (trimStart text).head? := by
      obtain ⟨rest, whole⟩ := trimEnd_isPrefix (trimStart text)
      rw [← whole, List.head?_append, ← trim, Option.mem_def.1 first]
      rfl
    have stopped := List.head?_dropWhile_not isBlank text
    rw [← trimStart, Option.mem_def.1 start] at stopped
    simpa using stopped
  · intro character last
    have stopped := List.head?_dropWhile_not isBlank (trimStart text).reverse
    rw [trim, trimEnd, List.getLast?_reverse] at last
    rw [Option.mem_def.1 last] at stopped
    simpa using stopped

theorem AtBlank.of_isPrefix {front text : List Char} (atBlank : AtBlank text)
    (start : front <+: text) : AtBlank front := by
  intro character member
  obtain ⟨rest, whole⟩ := start
  apply atBlank character
  rw [← whole, List.head?_append, Option.mem_def.1 member]
  rfl

theorem AtBlank.trimEnd {text : List Char} (atBlank : AtBlank text) : AtBlank (trimEnd text) :=
  atBlank.of_isPrefix (trimEnd_isPrefix text)

/-- No digit is blank. -/
theorem not_isBlank_of_isDigit {character : Char} (digit : isDigit character = true) :
    isBlank character = false := by
  have apart : ∀ code ∈ [9, 10, 11, 12, 13, 0x20, 0x85, 0xA0, 0x1680, 0x2000, 0x2001, 0x2002,
      0x2003, 0x2004, 0x2005, 0x2006, 0x2007, 0x2008, 0x2009, 0x200A, 0x2028, 0x2029, 0x202F,
      0x205F, 0x3000], inRanges digitRanges code = false := by decide
  rw [Bool.eq_false_iff]
  intro blank
  simp only [isBlank, Bool.or_eq_true, Bool.and_eq_true, decide_eq_true_eq, beq_iff_eq] at blank
  have listed := apart character.toNat (by
    simp only [List.mem_cons, List.not_mem_nil, or_false]
    omega)
  rw [isDigit, listed] at digit
  cases digit

/-! ## Words -/

section Words

variable {isSpace : Char → Bool}

@[simp] theorem words_nil : words isSpace [] = [] := by
  simp [words, List.splitOnP_nil]

/-- A blank separates words. -/
theorem words_append_blank {blank : Char} (space : isSpace blank = true)
    (before after : List Char) :
    words isSpace (before ++ blank :: after) = words isSpace before ++ words isSpace after := by
  rw [words, List.splitOnP_append_cons before after space, List.filter_append]
  rfl

theorem words_cons_blank {blank : Char} (space : isSpace blank = true) (text : List Char) :
    words isSpace (blank :: text) = words isSpace text := by
  simpa using words_append_blank space [] text

/-- There is no word in blanks. -/
theorem words_of_blank {text : List Char} (blank : text.all isSpace = true) :
    words isSpace text = [] := by
  induction text with
  | nil => exact words_nil
  | cons character text ih =>
      rw [List.all_cons, Bool.and_eq_true] at blank
      rw [words_cons_blank blank.1]
      exact ih blank.2

/-- A text without blanks is one word. -/
theorem words_of_solid {word : List Char} (nonempty : word ≠ [])
    (solid : ∀ character ∈ word, isSpace character = false) : words isSpace word = [word] := by
  rw [words, List.splitOnP_eq_singleton solid]
  simp [nonempty]

/-- There is a word wherever something is not blank. -/
theorem words_ne_nil {text : List Char} {character : Char} (member : character ∈ text)
    (solid : isSpace character = false) : words isSpace text ≠ [] := by
  induction text with
  | nil => cases member
  | cons head text ih =>
      by_cases space : isSpace head = true
      · rw [words_cons_blank space]
        apply ih
        rcases List.mem_cons.1 member with rfl | member
        · rw [solid] at space
          cases space
        · exact member
      · rw [words, List.splitOnP_cons_eq_if_modifyHead, if_neg space]
        obtain ⟨first, rest, split⟩ :=
          List.exists_cons_of_ne_nil (List.splitOnP_ne_nil isSpace text)
        simp [split]

end Words

/-- The word at the start of a text ends at the first blank. -/
theorem words_append_atBlank {word rest : List Char} (nonempty : word ≠ [])
    (solid : IsSolid word) (atBlank : AtBlank rest) :
    words isBlank (word ++ rest) = word :: words isBlank rest := by
  cases rest with
  | nil =>
      rw [List.append_nil, words_nil]
      exact words_of_solid nonempty solid
  | cons blank rest =>
      have space := atBlank blank rfl
      rw [words_append_blank space, words_of_solid nonempty solid, words_cons_blank space]
      rfl

@[simp] theorem words_trimStart (text : List Char) :
    words isBlank (trimStart text) = words isBlank text := by
  induction text with
  | nil => rfl
  | cons character text ih =>
      by_cases blank : isBlank character = true
      · rw [trimStart_cons_blank blank, words_cons_blank blank, ih]
      · rw [trimStart_cons_solid (by simpa using blank)]

theorem words_append_of_blank {blanks : List Char} (blank : isBlankText blanks = true)
    (text : List Char) : words isBlank (text ++ blanks) = words isBlank text := by
  cases blanks with
  | nil => rw [List.append_nil]
  | cons first blanks =>
      rw [isBlankText, List.all_cons, Bool.and_eq_true] at blank
      rw [words_append_blank blank.1, words_of_blank blank.2, List.append_nil]

@[simp] theorem words_trimEnd (text : List Char) :
    words isBlank (trimEnd text) = words isBlank text := by
  obtain ⟨blanks, blank, whole⟩ := exists_eq_trimEnd_append text
  conv_rhs => rw [whole, words_append_of_blank blank]

@[simp] theorem words_trim (text : List Char) : words isBlank (trim text) = words isBlank text := by
  rw [trim, words_trimEnd, words_trimStart]

theorem words_of_blank_append {blanks : List Char} (blank : isBlankText blanks = true)
    (text : List Char) : words isBlank (blanks ++ text) = words isBlank text := by
  rw [← words_trimStart, trimStart_append_of_blank blank, words_trimStart]

/-- A text without words is blank. -/
theorem blank_of_words_eq_nil {text : List Char} (wordless : words isBlank text = []) :
    isBlankText text = true := by
  rw [isBlankText, List.all_eq_true]
  intro character member
  by_contra solid
  exact words_ne_nil member (by simpa using solid) wordless

theorem isBlankText_eq (text : List Char) : isBlankText text = (words isBlank text).isEmpty := by
  rw [Bool.eq_iff_iff, List.isEmpty_iff]
  exact ⟨words_of_blank, blank_of_words_eq_nil⟩

/-- The first word of a text stands behind the blanks at its start. -/
theorem exists_of_words_eq_cons {text word : List Char} {others : List (List Char)}
    (split : words isBlank text = word :: others) :
    ∃ rest, word ≠ [] ∧ IsSolid word ∧ AtBlank rest ∧ trimStart text = word ++ rest ∧
      words isBlank rest = others := by
  have whole := List.takeWhile_append_dropWhile (p := fun character => !isBlank character)
    (l := trimStart text)
  have solid : IsSolid ((trimStart text).takeWhile fun character => !isBlank character) := by
    intro character member
    simpa using List.mem_takeWhile_imp member
  have atBlank := atBlank_dropWhile (trimStart text)
  have nonempty : (trimStart text).takeWhile (fun character => !isBlank character) ≠ [] := by
    intro none
    rw [none, List.nil_append] at whole
    rw [whole] at atBlank
    have begins := List.head?_dropWhile_not isBlank text
    rw [← trimStart] at begins
    cases start : trimStart text with
    | nil =>
        rw [← words_trimStart, start, words_nil] at split
        cases split
    | cons first rest =>
        rw [start] at atBlank begins
        have solidFirst : isBlank first = false := begins
        rw [atBlank first rfl] at solidFirst
        cases solidFirst
  rw [← words_trimStart, ← whole, words_append_atBlank nonempty solid atBlank] at split
  obtain ⟨rfl, rfl⟩ := List.cons.inj split
  exact ⟨_, nonempty, solid, atBlank, whole.symm, rfl⟩

section SolidFront

variable {sign : Char} {word front text : List Char}

/-- A word that lacks a character of the first word of a text is sought behind that word. -/
theorem mem_words_solid_iff (solid : IsSolid (front ++ [sign])) (absent : sign ∉ word) :
    word ∈ words isBlank (front ++ sign :: text) ↔
      word ∈ words isBlank (text.dropWhile fun character => !isBlank character) := by
  have atBlank := atBlank_dropWhile text
  have areSolid : IsSolid (text.takeWhile fun character => !isBlank character) := by
    intro character inside
    simpa using List.mem_takeWhile_imp inside
  have whole := List.takeWhile_append_dropWhile (p := fun character => !isBlank character)
    (l := text)
  generalize text.takeWhile (fun character => !isBlank character) = first at areSolid whole
  generalize text.dropWhile (fun character => !isBlank character) = rest at atBlank whole ⊢
  subst whole
  have longer : words isBlank (front ++ sign :: (first ++ rest)) =
      (front ++ sign :: first) :: words isBlank rest := by
    have shape : front ++ sign :: (first ++ rest) = (front ++ sign :: first) ++ rest := by simp
    rw [shape]
    refine words_append_atBlank (by simp) ?_ atBlank
    intro character inside
    have inside : character ∈ front ++ [sign] ∨ character ∈ first := by
      simpa [or_assoc] using inside
    exact inside.elim (solid character) (areSolid character)
  rw [longer, List.mem_cons, or_iff_right]
  rintro rfl
  simp at absent

/-- A word without a character that stands in the first word of a text is one of the words
after it. -/
theorem mem_words_of_mem_append (solid : IsSolid (front ++ [sign])) (absent : sign ∉ word)
    (member : word ∈ words isBlank (front ++ sign :: text)) : word ∈ words isBlank text := by
  rw [mem_words_solid_iff solid absent] at member
  have areSolid : IsSolid (text.takeWhile fun character => !isBlank character) := by
    intro character inside
    simpa using List.mem_takeWhile_imp inside
  by_cases empty : text.takeWhile (fun character => !isBlank character) = []
  · rwa [← List.takeWhile_append_dropWhile (p := fun character => !isBlank character) (l := text),
      empty]
  · rw [← List.takeWhile_append_dropWhile (p := fun character => !isBlank character) (l := text),
      words_append_atBlank empty areSolid (atBlank_dropWhile text)]
    exact List.mem_cons_of_mem _ member

/-- A text ends with a stretch without blanks, and a blank stands before it unless it is all of
the text. -/
theorem exists_last_stretch (text : List Char) :
    ∃ front last, text = front ++ last ∧ IsSolid last ∧ AtBlank front.reverse := by
  refine ⟨(text.reverse.dropWhile fun character => !isBlank character).reverse,
    (text.reverse.takeWhile fun character => !isBlank character).reverse, ?_, ?_, ?_⟩
  · rw [← List.reverse_append, List.takeWhile_append_dropWhile, List.reverse_reverse]
  · intro character member
    simpa using List.mem_takeWhile_imp (List.mem_reverse.1 member)
  · rw [List.reverse_reverse]
    exact atBlank_dropWhile text.reverse

/-- A word without a character stands on one side of it. -/
theorem mem_words_append_cons_iff (solid : isBlank sign = false) (absent : sign ∉ word)
    (front text : List Char) :
    word ∈ words isBlank (front ++ sign :: text) ↔
      word ∈ words isBlank (front ++ [sign]) ∨ word ∈ words isBlank (sign :: text) := by
  have onSolid {last : List Char} (areSolid : IsSolid last) :
      word ∉ words isBlank (last ++ [sign]) ∧
        (word ∈ words isBlank (last ++ sign :: text) ↔ word ∈ words isBlank (sign :: text)) := by
    have withSign : IsSolid (last ++ [sign]) := by
      simpa [IsSolid, or_imp, forall_and] using ⟨areSolid, solid⟩
    have alone : IsSolid ([] ++ [sign]) := by simpa [IsSolid] using solid
    constructor
    · rw [mem_words_solid_iff withSign absent]
      simp
    · rw [mem_words_solid_iff withSign absent]
      exact (mem_words_solid_iff alone absent).symm
  obtain ⟨front, last, rfl, areSolid, atBlank⟩ := exists_last_stretch front
  obtain ⟨none, same⟩ := onSolid areSolid
  rcases List.eq_nil_or_concat front with rfl | ⟨others, blank, rfl⟩
  · rw [List.nil_append, same, or_iff_right none]
  · have space : isBlank blank = true := atBlank blank (by simp)
    simp only [List.concat_eq_append, List.append_assoc, List.cons_append, List.nil_append,
      words_append_blank space, List.mem_append, same, none, or_false]

end SolidFront
/-- A word before a blank is taken off whole. -/
theorem takeWhile_append_atBlank {word rest : List Char} (solid : IsSolid word)
    (atBlank : AtBlank rest) :
    (word ++ rest).takeWhile (fun character => !isBlank character) = word := by
  rw [List.takeWhile_append_of_pos (by simpa [IsSolid] using solid)]
  cases rest with
  | nil => simp
  | cons blank rest => simp [atBlank blank rfl]

@[inherit_doc takeWhile_append_atBlank]
theorem dropWhile_append_atBlank {word rest : List Char} (solid : IsSolid word)
    (atBlank : AtBlank rest) :
    (word ++ rest).dropWhile (fun character => !isBlank character) = rest := by
  rw [List.dropWhile_append_of_pos (by simpa [IsSolid] using solid)]
  cases rest with
  | nil => rfl
  | cons blank rest => simp [atBlank blank rfl]

/-- A text that begins with a word and a blank has no other word before its first blank. -/
theorem eq_of_prefix_atBlank {word solid rest : List Char} {blank : Char} (isWord : IsSolid word)
    (isSolid : IsSolid solid) (atBlank : AtBlank rest) (isBlank : isBlank blank = true)
    (start : word ++ [blank] <+: solid ++ rest) : solid = word := by
  obtain ⟨after, whole⟩ := start
  rw [List.append_assoc, List.singleton_append] at whole
  have first := congrArg (List.takeWhile fun character => !Text.isBlank character) whole
  rwa [takeWhile_append_atBlank isWord (atBlank_cons isBlank after),
    takeWhile_append_atBlank isSolid atBlank, eq_comm] at first

/-! ## Occurrences -/

/-- A text contains a part when the part stands somewhere in it. -/
theorem contains_iff {part text : List Char} (nonempty : part ≠ []) :
    contains part text = true ↔ part <:+: text := by
  constructor
  · intro found
    by_contra absent
    rw [contains, cut_eq_none absent] at found
    cases found
  · intro occurs
    by_contra missing
    refine not_infix_of_cut nonempty ?_ occurs
    simpa [contains] using missing

/-- A part does not begin in a stretch of text that lacks its first character. -/
theorem infix_of_infix_append {first : Char} {part front text : List Char}
    (absent : first ∉ front) (occurs : first :: part <:+: front ++ text) :
    first :: part <:+: text := by
  induction front with
  | nil => exact occurs
  | cons character front ih =>
      rw [List.mem_cons, not_or] at absent
      rw [List.cons_append, List.infix_cons_iff] at occurs
      rcases occurs with start | inside
      · exact absurd (List.cons_prefix_cons.1 start).1 absent.1
      · exact ih absent.2 inside

/-- What begins with a mark is found right behind the first occurrence of the mark, or later. -/
theorem infix_iff_of_cut {first : Char} {part before after tail text : List Char}
    (absent : first ∉ part) (found : cut (first :: part) text = some (before, after)) :
    first :: part ++ tail <:+: text ↔ tail <+: after ∨ first :: part ++ tail <:+: after := by
  constructor
  · intro occurs
    induction text generalizing before with
    | nil => simp [cut] at found
    | cons character rest ih =>
        rw [cut] at found
        split at found
        · rename_i remaining isMark
          cases found
          rw [isPrefixOf?_eq_some isMark, List.cons_append, List.cons_append,
            List.infix_cons_iff] at occurs
          rcases occurs with start | later
          · rw [← List.cons_append, ← List.cons_append, List.prefix_append_right_inj] at start
            exact .inl start
          · exact .inr (infix_of_infix_append absent later)
        · rename_i other
          rw [isPrefixOf?_eq_none_iff] at other
          obtain ⟨⟨inner, outer⟩, found, same⟩ := Option.map_eq_some_iff.1 found
          cases same
          rcases List.infix_cons_iff.1 occurs with start | later
          · exact absurd ((List.prefix_append _ tail).trans start) other
          · exact ih found later
  · rw [cut_eq_some found]
    rintro (⟨rest, rfl⟩ | later)
    · exact ⟨before, rest, by simp⟩
    · exact later.trans (List.suffix_append _ after).isInfix

theorem dropEnd_of_not_mem {mark : Char} {text : List Char} (absent : mark ∉ text) :
    dropEnd mark text = text := by
  have kept : text.reverse.dropWhile (· == mark) = text.reverse := by
    cases reversed : text.reverse with
    | nil => rfl
    | cons last others =>
        have member : last ∈ text := List.mem_reverse.1 (reversed ▸ List.mem_cons_self)
        apply List.dropWhile_cons_of_neg
        simp only [beq_iff_eq]
        rintro rfl
        exact absent member
  rw [dropEnd, kept, List.reverse_reverse]

/-- A mark is dropped from the end of a text that holds it nowhere else. -/
theorem dropEnd_append {mark : Char} {front : List Char} (absent : mark ∉ front) :
    dropEnd mark (front ++ [mark]) = front := by
  rw [dropEnd, List.reverse_append, List.reverse_singleton, List.singleton_append,
    List.dropWhile_cons_of_pos (by simp), ← dropEnd, dropEnd_of_not_mem absent]

/-- Other characters are kept, with all that stands before them. -/
theorem dropEnd_append_cons {mark character : Char} (other : character ≠ mark)
    (front back : List Char) :
    dropEnd mark (front ++ character :: back) = front ++ character :: dropEnd mark back := by
  have shape : (front ++ character :: back).reverse =
      back.reverse ++ character :: front.reverse := by simp
  rw [dropEnd, dropEnd, shape, List.dropWhile_append]
  split
  · rename_i allMarks
    rw [List.isEmpty_iff.1 allMarks, List.dropWhile_cons_of_neg (by simpa using other)]
    simp
  · simp

/-! ## Pieces -/

/-- Each part of a joined text stands in it. -/
theorem isInfix_intercalate {separator part : List Char} {parts : List (List Char)}
    (member : part ∈ parts) : part <:+: separator.intercalate parts := by
  induction parts with
  | nil => cases member
  | cons first parts ih =>
      cases parts with
      | nil => rw [List.intercalate_singleton, List.mem_singleton.1 member]
      | cons second parts =>
          rw [List.intercalate_cons_cons]
          rcases List.mem_cons.1 member with rfl | later
          · exact ((List.prefix_append part separator).trans (List.prefix_append _ _)).isInfix
          · exact (ih later).trans (List.suffix_append _ _).isInfix

theorem isInfix_of_mem_splitOn {sign : Char} {piece text : List Char}
    (member : piece ∈ text.splitOn sign) : piece <:+: text := by
  have inside := @isInfix_intercalate [sign] _ _ member
  rwa [List.intercalate_splitOn] at inside

/-- The words of a text are those of its pieces, when it is split at a blank. -/
theorem words_eq_flatMap_splitOn {blank : Char} (space : isBlank blank = true) (text : List Char) :
    words isBlank text = (text.splitOn blank).flatMap (words isBlank) := by
  have joined (pieces : List (List Char)) :
      words isBlank ([blank].intercalate pieces) = pieces.flatMap (words isBlank) := by
    induction pieces with
    | nil => exact words_nil
    | cons piece pieces ih =>
        cases pieces with
        | nil => simp
        | cons next pieces =>
            rw [List.intercalate_cons_cons, List.append_assoc, List.singleton_append,
              words_append_blank space, ih]
            rfl
  rw [← joined, List.intercalate_splitOn]

/-! ## Lines -/

@[simp] theorem dropReturn_append_return (line : List Char) :
    dropReturn (line ++ ['\r']) = line := by
  simp [dropReturn, beforeEnd?, List.isPrefixOf?]

/-- Only a carriage return is taken off the end of a line. -/
theorem dropReturn_eq_or (line : List Char) :
    dropReturn line = line ∨ line = dropReturn line ++ ['\r'] := by
  cases ending : line.getLast? with
  | none =>
      rw [List.getLast?_eq_none_iff.1 ending]
      exact .inl rfl
  | some last =>
      obtain ⟨front, rfl⟩ := List.getLast?_eq_some_iff.1 ending
      by_cases isReturn : last = '\r'
      · subst isReturn
        rw [dropReturn_append_return]
        exact .inr rfl
      · left
        have other : ('\r' == last) = false := by simpa using Ne.symm isReturn
        simp [dropReturn, beforeEnd?, List.isPrefixOf?, other]

/-- The carriage return before a line feed is a blank like others. -/
theorem trim_dropReturn (line : List Char) : trim (dropReturn line) = trim line := by
  rcases dropReturn_eq_or line with same | ended
  · rw [same]
  · calc trim (dropReturn line)
      _ = trim (dropReturn line ++ ['\r']) := (trim_append_of_blank (by decide) _).symm
      _ = trim line := by rw [← ended]

/-- Texts that are each ended by a mark are the pieces between the marks. -/
theorem splitOn_flatMap {mark : Char} {written : List (List Char)}
    (absent : ∀ piece ∈ written, mark ∉ piece) :
    (written.flatMap (· ++ [mark])).splitOn mark = written ++ [[]] := by
  induction written with
  | nil => rfl
  | cons piece written ih =>
      rw [List.flatMap_cons, List.append_assoc, List.singleton_append,
        List.splitOn_append_cons_self_of_not_mem (absent piece List.mem_cons_self),
        ih fun other member => absent other (List.mem_cons_of_mem piece member)]
      rfl

/-- What is put behind a text belongs to its last piece. -/
theorem exists_splitOn_append (mark : Char) (text : List Char) :
    ∃ pieces last, (text.splitOn mark).getLast? = some last ∧
      ∀ more, mark ∉ more → (text ++ more).splitOn mark = pieces ++ [last ++ more] := by
  by_cases occurs : mark ∈ text
  · obtain ⟨back, front, reversed, absent⟩ :=
      List.eq_append_cons_of_mem (List.mem_reverse.2 occurs)
    have shape : text = front.reverse ++ mark :: back.reverse := by
      rw [← List.reverse_inj, reversed]
      simp
    rw [← List.mem_reverse] at absent
    refine ⟨front.reverse.splitOn mark, back.reverse, ?_, ?_⟩
    · rw [shape, List.splitOn_append_cons_self, List.splitOn_eq_singleton absent]
      simp
    · intro more others
      have together : mark ∉ back.reverse ++ more := by
        rw [List.mem_append, not_or]
        exact ⟨absent, others⟩
      rw [shape, List.append_assoc, List.cons_append, List.splitOn_append_cons_self,
        List.splitOn_eq_singleton together]
  · refine ⟨[], text, ?_, ?_⟩
    · rw [List.splitOn_eq_singleton occurs]
      rfl
    · intro more others
      apply List.splitOn_eq_singleton
      rw [List.mem_append, not_or]
      exact ⟨occurs, others⟩

/-- A line feed ends the first line. -/
theorem lines_append_lineFeed {line : List Char} (single : '\n' ∉ line) (rest : List Char) :
    lines (line ++ '\n' :: rest) = dropReturn line :: lines rest := by
  obtain ⟨first, others, pieces⟩ :=
    List.exists_cons_of_ne_nil (List.splitOnP_ne_nil (· == '\n') rest)
  have pieces : rest.splitOn '\n' = first :: others := pieces
  rw [lines, lines, List.splitOn_append_cons_self_of_not_mem single, pieces]
  rfl

/-- A text without line feeds is one line. -/
theorem lines_of_single {line : List Char} (nonempty : line ≠ []) (single : '\n' ∉ line) :
    lines line = [line] := by
  rw [lines, List.splitOn_eq_singleton single, lines.ended, if_neg (by simp [nonempty])]

/-- Texts that are each ended by a line feed are the first lines of a text that they begin. -/
theorem lines_flatMap_append {written : List (List Char)}
    (single : ∀ line ∈ written, '\n' ∉ line) (rest : List Char) :
    lines (written.flatMap (· ++ ['\n']) ++ rest) = written.map dropReturn ++ lines rest := by
  induction written with
  | nil => rfl
  | cons line written ih =>
      have others := ih fun other member => single other (List.mem_cons_of_mem line member)
      rw [List.flatMap_cons, List.append_assoc, List.append_assoc, List.singleton_append,
        lines_append_lineFeed (single line List.mem_cons_self), others]
      rfl

/-- Texts that are each ended by a line feed are the lines of what they make together. -/
theorem lines_flatMap {written : List (List Char)} (single : ∀ line ∈ written, '\n' ∉ line) :
    lines (written.flatMap (· ++ ['\n'])) = written.map dropReturn := by
  have all := lines_flatMap_append single []
  rwa [List.append_nil, show lines [] = [] from rfl, List.append_nil] at all

end ClassAtlas.Text
