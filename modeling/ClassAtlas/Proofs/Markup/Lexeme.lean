import ClassAtlas.Markup.Node
import ClassAtlas.Proofs.Text.Cut
import ClassAtlas.Text.Blank
import Mathlib

/-!
# Lexemes of plain markup

The parts from which plain markup is written: names, spaces, values and comments, each
with the conditions under which it can be read back.  Each of them is one token, when
what follows it begins a tag.
-/

namespace ClassAtlas.Markup

/-- A name without a prefix. -/
structure Name where
  letters : List Char
  begins : QualifiedName.startsName letters = true
  continues : letters.all isNamePart = true
  deriving DecidableEq

namespace Name

/-- The name as a string. -/
def text (name : Name) : String := String.ofList name.letters

/-- The name as a document has it. -/
def qualified (name : Name) : QualifiedName := ⟨"", name.text⟩

/-- The start tag of this name. -/
def openingTag (name : Name) : List Char := '<' :: name.letters ++ ['>']

/-- The end tag of this name. -/
def closingTag (name : Name) : List Char := '<' :: '/' :: name.letters ++ ['>']

end Name

/-- Spaces, or nothing. -/
structure Spaces where
  letters : List Char
  blank : isSpaces letters = true
  deriving DecidableEq

theorem isSpaces_nil : isSpaces [] = true := rfl

def Spaces.none : Spaces := ⟨[], isSpaces_nil⟩

/-- Two runs of spaces as one. -/
def Spaces.append (left right : Spaces) : Spaces where
  letters := left.letters ++ right.letters
  blank := by
    have both := And.intro left.blank right.blank
    simpa [isSpaces] using both

/-- A character that a document may hold and that begins no reference. -/
def isClear (character : Char) : Bool :=
  isAllowed character && character != '&'

/-- A character that a plain value may hold. -/
def isPlain (character : Char) : Bool :=
  isClear character && character != '<' && character != '>' && character != '\r'

/-- A value without blanks at its ends that stands for itself. -/
structure Value where
  letters : List Char
  nonempty : letters ≠ []
  trimmed : Text.trim letters = letters
  plain : letters.all isPlain = true

/-- The value as a string. -/
def Value.text (value : Value) : String := String.ofList value.letters

/-- The text is a value as it stands. -/
def isValue (text : String) : Bool :=
  !text.toList.isEmpty && Text.trim text.toList == text.toList && text.toList.all isPlain

/-- A value by its text. -/
def Value.ofText (text : String) (valid : isValue text = true) : Value where
  letters := text.toList
  nonempty := by
    simp only [isValue, Bool.and_eq_true, Bool.not_eq_true', List.isEmpty_eq_false_iff] at valid
    exact valid.1.1
  trimmed := by
    simp only [isValue, Bool.and_eq_true, beq_iff_eq] at valid
    exact valid.1.2
  plain := by
    simp only [isValue, Bool.and_eq_true] at valid
    exact valid.2

/-- What stands between the marks of a comment. -/
structure Comment where
  letters : List Char
  clear : letters.all isClear = true
  single : Text.contains ['-', '-'] letters = false
  ending : letters.getLast? ≠ some '-'

/-- The comment with its marks. -/
def Comment.text (comment : Comment) : List Char :=
  "<!--".toList ++ (comment.letters ++ "-->".toList)

/-- Nothing follows, or a tag. -/
def AtTag (rest : List Char) : Prop := ∀ character ∈ rest.head?, character = '<'

theorem atTag_cons (rest : List Char) : AtTag ('<' :: rest) := by simp [AtTag]

theorem Name.atTag_openingTag (name : Name) (rest : List Char) :
    AtTag (name.openingTag ++ rest) := atTag_cons _

theorem Name.atTag_closingTag (name : Name) (rest : List Char) :
    AtTag (name.closingTag ++ rest) := atTag_cons _

theorem Comment.atTag_text (comment : Comment) (rest : List Char) :
    AtTag (comment.text ++ rest) := by
  intro character first
  cases first
  rfl

/-! ## Characters -/

section Characters

variable {character : Char}

theorem ne_of_isNamePart {other : Char} (part : isNamePart character = true)
    (excluded : isNamePart other = false) : character ≠ other := by
  intro equal
  rw [equal, excluded] at part
  cases part

theorem toNat_of_isNamePart (part : isNamePart character = true) :
    0x2D ≤ character.toNat ∧ character.toNat ≠ 0xFFFE ∧ character.toNat ≠ 0xFFFF := by
  have number : character.val.toNat = character.toNat := rfl
  simp only [isNamePart, isNameStart, isForeignNameStart, Char.isAlpha, Char.isUpper,
    Char.isLower, Char.isDigit, Bool.or_eq_true, Bool.and_eq_true, decide_eq_true_eq,
    beq_iff_eq, ge_iff_le, UInt32.le_iff_toNat_le, number, Char.reduceVal,
    UInt32.reduceToNat, ← Char.toNat_inj, Char.reduceToNat] at part
  omega

theorem isAllowed_of_isNamePart (part : isNamePart character = true) :
    isAllowed character = true := by
  obtain ⟨printable, first, second⟩ := toNat_of_isNamePart part
  rw [isAllowed, if_neg (by omega)]
  simp [first, second]

theorem isNameStart_ne {other : Char} (start : isNameStart character = true)
    (excluded : isNameStart other = false) : character ≠ other := by
  intro equal
  rw [equal, excluded] at start
  cases start

end Characters

/-! ## Names and tags -/

namespace Name

theorem exists_cons (name : Name) :
    ∃ first others, name.letters = first :: others ∧ isNameStart first = true := by
  obtain ⟨letters, begins, _⟩ := name
  cases letters with
  | nil => cases begins
  | cons first others => exact ⟨first, others, rfl, begins⟩

theorem isNamePart_of_mem {name : Name} {character : Char}
    (member : character ∈ name.letters) : isNamePart character = true :=
  List.all_eq_true.1 name.continues character member

theorem not_mem_letters {name : Name} {character : Char}
    (excluded : isNamePart character = false) : character ∉ name.letters :=
  fun member => ne_of_isNamePart (isNamePart_of_mem member) excluded rfl

theorem takeWhile_letters (name : Name) (rest : List Char) :
    (name.letters ++ '>' :: rest).takeWhile isNamePart = name.letters := by
  rw [List.takeWhile_append_of_pos fun _ => isNamePart_of_mem,
    List.takeWhile_cons_of_neg (by decide), List.append_nil]

theorem dropWhile_letters (name : Name) (rest : List Char) :
    (name.letters ++ '>' :: rest).dropWhile isNamePart = '>' :: rest := by
  rw [List.dropWhile_append_of_pos fun _ => isNamePart_of_mem,
    List.dropWhile_cons_of_neg (by decide)]

theorem scan_letters (name : Name) (rest : List Char) :
    QualifiedName.scan (name.letters ++ '>' :: rest) = some (name.qualified, '>' :: rest) := by
  simp [QualifiedName.scan, dropWhile_letters, takeWhile_letters, QualifiedName.of?,
    name.begins, qualified, text]

theorem scan_openingTag (name : Name) (rest : List Char) :
    Token.scan (name.openingTag ++ rest) = some (.opening name.qualified [] false, rest) := by
  obtain ⟨first, others, letters, start⟩ := name.exists_cons
  have noRemark : first ≠ '!' := isNameStart_ne start (by decide)
  have noInstruction : first ≠ '?' := isNameStart_ne start (by decide)
  have noEnd : first ≠ '/' := isNameStart_ne start (by decide)
  have ended : scanAttributes ('>' :: rest) = some ([], false, rest) := by
    rw [scanAttributes]
    rfl
  have named := scan_letters name rest
  rw [letters] at named
  rw [openingTag, letters]
  simp only [List.cons_append, List.nil_append, List.append_assoc] at named ⊢
  rw [Token.scan]
  · simp only [named, ended, Option.map_some]
  · simp [noRemark]
  · simp [noRemark]
  · simp [noInstruction]
  · simp [noEnd]

theorem scan_closingTag (name : Name) (rest : List Char) :
    Token.scan (name.closingTag ++ rest) = some (.closing name.qualified, rest) := by
  have named := scan_letters name rest
  have tight : skipSpaces ('>' :: rest) = '>' :: rest := rfl
  simp only [closingTag, List.cons_append, List.append_assoc, List.nil_append, Token.scan, named,
    tight]

end Name

/-! ## Tokens -/

theorem cut_commentEnd (comment : Comment) (rest : List Char) :
    Text.cut "-->".toList (comment.letters ++ ("-->".toList ++ rest)) =
      some (comment.letters, rest) := by
  have mark : "-->".toList = ['-', '-', '>'] := by decide
  have double : ¬['-', '-'] <:+: comment.letters := by
    apply Text.not_infix_of_cut (List.cons_ne_nil _ _)
    rw [← Option.not_isSome_iff_eq_none]
    exact Bool.eq_false_iff.1 comment.single
  rw [mark, Text.cut_append_of_other, Text.cut_append (List.cons_ne_nil _ _)]
  · simp
  · intro stretch ending nonempty isMark
    match stretch with
    | [] => exact nonempty rfl
    | [last] =>
        obtain ⟨before, shape⟩ := ending
        obtain ⟨rfl, _⟩ := List.cons_prefix_cons.1 isMark
        exact comment.ending (by rw [← shape]; simp)
    | first :: second :: others =>
        simp only [List.cons_append, List.cons_prefix_cons] at isMark
        obtain ⟨rfl, rfl, _⟩ := isMark
        obtain ⟨before, shape⟩ := ending
        exact double ⟨before, others, by rw [← shape]; simp⟩

theorem scan_comment (comment : Comment) (rest : List Char) :
    Token.scan (comment.text ++ rest) = some (.remark, rest) := by
  have opened : comment.text ++ rest =
      '<' :: '!' :: '-' :: '-' :: (comment.letters ++ ("-->".toList ++ rest)) := by
    simp only [Comment.text, List.append_assoc]
    rfl
  rw [opened, Token.scan, Token.scanComment, cut_commentEnd]
  simp [comment.single, comment.ending]

theorem bne_of_not_mem {letters : List Char} {mark : Char} (absent : mark ∉ letters) :
    ∀ character ∈ letters, (character != mark) = true := by
  intro character member
  simpa using fun equal : character = mark => absent (equal ▸ member)

theorem takeWhile_atTag {letters rest : List Char} (plain : '<' ∉ letters)
    (ends : AtTag rest) : (letters ++ rest).takeWhile (· != '<') = letters := by
  rw [List.takeWhile_append_of_pos (bne_of_not_mem plain)]
  cases rest with
  | nil => simp
  | cons first others =>
      rw [ends first rfl, List.takeWhile_cons_of_neg (by decide), List.append_nil]

theorem dropWhile_atTag {letters rest : List Char} (plain : '<' ∉ letters)
    (ends : AtTag rest) : (letters ++ rest).dropWhile (· != '<') = rest := by
  have whole := List.takeWhile_append_dropWhile (p := (· != '<')) (l := letters ++ rest)
  rw [takeWhile_atTag plain ends] at whole
  exact List.append_cancel_left whole

theorem scan_text {letters rest : List Char} (nonempty : letters ≠ []) (plain : '<' ∉ letters)
    (noSection : '>' ∉ letters) (ends : AtTag rest) :
    Token.scan (letters ++ rest) = some (.text letters, rest) := by
  obtain ⟨first, others, rfl⟩ := List.exists_cons_of_ne_nil nonempty
  obtain ⟨noTag, later⟩ := not_or.1 (mt List.mem_cons.2 plain)
  have absent : ¬"]]>".toList <:+: first :: others := by
    intro occurs
    exact noSection (occurs.subset (by decide))
  rw [List.cons_append, Token.scan]
  · simp only [takeWhile_atTag later ends, dropWhile_atTag later ends, Text.contains,
      Text.cut_eq_none absent]
    rfl
  all_goals simp [Ne.symm noTag]

theorem scanAll_of_scan {text rest : List Char} {token : Token}
    (scanned : Token.scan text = some (token, rest)) :
    Token.scanAll text = (Token.scanAll rest).map (token :: ·) := by
  cases text with
  | nil => cases scanned
  | cons first others =>
      rw [Token.scanAll, if_neg (by simp)]
      split
      · rename_i found
        rw [scanned] at found
        cases found
        rfl
      · rename_i missing
        rw [scanned] at missing
        cases missing

namespace Spaces

theorem isSpace_of_mem {spaces : Spaces} {character : Char}
    (member : character ∈ spaces.letters) : isSpace character = true :=
  List.all_eq_true.1 spaces.blank character member

theorem not_mem_letters {spaces : Spaces} {character : Char}
    (excluded : isSpace character = false) : character ∉ spaces.letters := by
  intro member
  have space := isSpace_of_mem member
  rw [excluded] at space
  cases space

/-- Spaces are a piece of text, unless there are none. -/
def tokens (spaces : Spaces) : List Token :=
  if spaces.letters = [] then [] else [.text spaces.letters]

theorem scanAll_append (spaces : Spaces) {rest : List Char} (ends : AtTag rest) :
    Token.scanAll (spaces.letters ++ rest) =
      (Token.scanAll rest).map (spaces.tokens ++ ·) := by
  by_cases none : spaces.letters = []
  · simp [tokens, none]
  · have scanned := scan_text none (not_mem_letters (by decide)) (not_mem_letters (by decide)) ends
    rw [scanAll_of_scan scanned, tokens, if_neg none]
    rfl

end Spaces

namespace Value

theorem isPlain_of_mem {value : Value} {character : Char}
    (member : character ∈ value.letters) : isPlain character = true :=
  List.all_eq_true.1 value.plain character member

theorem not_mem_letters {value : Value} {character : Char}
    (excluded : isPlain character = false) : character ∉ value.letters := by
  intro member
  have plain := isPlain_of_mem member
  rw [excluded] at plain
  cases plain

theorem trimmed_text (value : Value) : Text.trimmed value.text = value.text := by
  simp [Text.trimmed, text, value.trimmed]

theorem isEmpty_text (value : Value) : value.text.isEmpty = false := by
  simp [text, value.nonempty]

theorem scan_letters (value : Value) {rest : List Char} (ends : AtTag rest) :
    Token.scan (value.letters ++ rest) = some (.text value.letters, rest) :=
  scan_text value.nonempty (not_mem_letters (by decide)) (not_mem_letters (by decide)) ends

end Value

/-! ## Clear characters -/

theorem isAllowed_of_isClear {character : Char} (clear : isClear character = true) :
    isAllowed character = true := by
  rw [isClear, Bool.and_eq_true] at clear
  exact clear.1

theorem Name.clear_letters (name : Name) : name.letters.all isClear = true := by
  apply List.all_eq_true.2
  intro character member
  have part := isNamePart_of_mem member
  have noReference : character ≠ '&' := ne_of_isNamePart part (by decide)
  simp [isClear, isAllowed_of_isNamePart part, noReference]

theorem Name.clear_openingTag (name : Name) : name.openingTag.all isClear = true := by
  simp only [openingTag, List.cons_append, List.all_cons, List.all_append, name.clear_letters]
  decide

theorem Name.clear_closingTag (name : Name) : name.closingTag.all isClear = true := by
  simp only [closingTag, List.cons_append, List.all_cons, List.all_append, name.clear_letters]
  decide

theorem Value.clear (value : Value) : value.letters.all isClear = true := by
  apply List.all_eq_true.2
  intro character member
  have plain := isPlain_of_mem member
  simp only [isPlain, Bool.and_eq_true] at plain
  exact plain.1.1.1

theorem Spaces.clear (spaces : Spaces) : spaces.letters.all isClear = true := by
  apply List.all_eq_true.2
  intro character member
  have space := isSpace_of_mem member
  simp only [isSpace, Bool.or_eq_true, beq_iff_eq] at space
  rcases space with ((equal | equal) | equal) | equal <;> subst equal <;> decide

theorem Comment.clear_text (comment : Comment) : comment.text.all isClear = true := by
  simp only [text, List.all_append, comment.clear]
  decide

end ClassAtlas.Markup
