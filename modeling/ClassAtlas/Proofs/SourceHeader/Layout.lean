import ClassAtlas.Proofs.Text.Words
import ClassAtlas.SourceHeader

/-!
# Layouts of headers

A header is laid out on lines: a line with the package statement, lines with import statements,
blank lines, and comments.  What such a layout declares is read off it directly
(`Layout.header`); the text that it is written as (`Layout.text`) is what a source file begins
with.  The line on which the first type declaration begins ends the header (`TypeLine`).
-/

namespace ClassAtlas.SourceHeader

open Text (trim trimStart trimEnd isBlankText IsSolid AtBlank)

/-! ## Names -/

/-- Blanks within a line.  The carriage return before a line feed is one of them. -/
structure Blanks where
  text : List Char
  isBlank : isBlankText text = true
  single : '\n' ∉ text

/-- At least one blank. -/
structure Space extends Blanks where
  nonempty : text ≠ []

def Blanks.none : Blanks := ⟨[], rfl, List.not_mem_nil⟩

def Space.one : Space := ⟨⟨[' '], rfl, by decide⟩, List.cons_ne_nil _ _⟩

/-- A character of a name: neither a blank nor one that has a meaning in statements and
comments. -/
def isNameCharacter (character : Char) : Bool :=
  !Text.isBlank character && ['.', ';', '/', '*'].all (character != ·)

/-- A part of a dotted name. -/
structure Segment where
  text : List Char
  nonempty : text ≠ []
  isName : text.all isNameCharacter = true

/-- A name whose parts are joined by dots. -/
structure DottedName where
  first : Segment
  others : List Segment

def DottedName.text (name : DottedName) : List Char :=
  name.first.text ++ name.others.flatMap ('.' :: ·.text)

/-- What is imported: a type or a member by its name, or all that lies below the name. -/
structure Target where
  name : DottedName
  isWildcard : Bool

def Target.text (target : Target) : List Char :=
  target.name.text ++ if target.isWildcard then ['.', '*'] else []

/-! ## Statements -/

/-- The words that begin a statement, or stand in it before the name. -/
def packageWord : List Char := "package".toList

@[inherit_doc packageWord]
def importWord : List Char := "import".toList

@[inherit_doc packageWord]
def staticWord : List Char := "static".toList

/-- The blanks, if any, between the name in a statement and the semicolon.  A name that is a type
word has to touch the semicolon: standing alone it would begin a type declaration. -/
structure Gap (name : List Char) extends Blanks where
  apart : text = [] ∨ name ∉ typeWords

def Gap.none (name : List Char) : Gap name := ⟨.none, .inl rfl⟩

/-- The statement that declares the package. -/
structure PackageStatement where
  space : Space
  name : DottedName
  gap : Gap name.text

/-- The statement without the semicolon. -/
def PackageStatement.body (statement : PackageStatement) : List Char :=
  packageWord ++ (statement.space.text ++ (statement.name.text ++ statement.gap.text))

def PackageStatement.text (statement : PackageStatement) : List Char :=
  statement.body ++ [';']

/-- A statement that imports, with the blanks before it. -/
structure ImportStatement where
  indentation : Blanks
  space : Space
  /-- The blanks after the word that makes the import a static one. -/
  static : Option Space
  target : Target
  gap : Gap target.text

/-- The word that makes an import a static one, with the blanks after it. -/
def staticText : Option Space → List Char
  | some space => staticWord ++ space.text
  | none => []

@[inherit_doc PackageStatement.body]
def ImportStatement.body (statement : ImportStatement) : List Char :=
  statement.indentation.text ++ (importWord ++ (statement.space.text ++
    (staticText statement.static ++ (statement.target.text ++ statement.gap.text))))

def ImportStatement.text (statement : ImportStatement) : List Char :=
  statement.body ++ [';']

/-! ## Lines -/

/-- A comment that goes on to the end of its line. -/
structure LineComment where
  /-- What follows the two slashes. -/
  text : List Char
  single : '\n' ∉ text
  opensNone : ¬['/', '*'] <:+: '/' :: '/' :: text

/-- What may stand on a line after its statements. -/
structure Margin where
  blanks : Blanks
  comment : Option LineComment

def Margin.text (margin : Margin) : List Char :=
  margin.blanks.text ++
    match margin.comment with
    | some comment => '/' :: '/' :: comment.text
    | none => []

def Margin.none : Margin := ⟨.none, Option.none⟩

/-- A comment that begins and ends on lines of its own. -/
structure BlockComment where
  indentation : Blanks
  /-- What follows the mark that opens the comment on its first line. -/
  first : List Char
  firstSingle : '\n' ∉ first
  firstCloses : ¬['*', '/'] <:+: '/' :: '*' :: first
  middle : List (List Char)
  middleSingle : ∀ line ∈ middle, '\n' ∉ line
  middleCloses : ∀ line ∈ middle, ¬['*', '/'] <:+: line
  /-- What precedes the mark that closes the comment on its last line. -/
  last : List Char
  lastSingle : '\n' ∉ last
  lastCloses : ¬['*', '/'] <:+: last ++ ['*']
  margin : Blanks

def BlockComment.lines (comment : BlockComment) : List (List Char) :=
  (comment.indentation.text ++ '/' :: '*' :: comment.first) ::
    (comment.middle ++ [comment.last ++ '*' :: '/' :: comment.margin.text])

/-- What a header consists of.  A line with imports need not have any: then it is blank, or holds
a comment only. -/
inductive Item where
  | package (indentation : Blanks) (statement : PackageStatement) (margin : Margin)
  | imports (statements : List ImportStatement) (margin : Margin)
  | block (comment : BlockComment)

/-- The lines of an item, each without the line feed that ends it. -/
def Item.lines : Item → List (List Char)
  | .package indentation statement margin =>
      [indentation.text ++ statement.text ++ margin.text]
  | .imports statements margin => [statements.flatMap (·.text) ++ margin.text]
  | .block comment => comment.lines

/-- The package that an item declares. -/
def Item.package? : Item → Option (List Char)
  | .package _ statement _ => some statement.name.text
  | _ => none

/-- The targets that an item imports. -/
def Item.targets : Item → List (List Char)
  | .imports statements _ => statements.map (·.target.text)
  | _ => []

/-- A header that is laid out on lines. -/
abbrev Layout := List Item

def Layout.text (layout : Layout) : List Char :=
  (layout.flatMap (·.lines)).flatMap (· ++ ['\n'])

/-- What a layout declares.  It should have one package statement or none; the first counts. -/
def Layout.header (layout : Layout) : SourceHeader where
  package := (layout.findSome? (·.package?)).map String.ofList
  imports := (layout.flatMap (·.targets)).map String.ofList

/-- A text on a line before a type word that stands alone and in no comment. -/
structure IsClear (front : List Char) : Prop where
  beginsWord : AtBlank front.reverse
  opensNone : ¬['/', '*'] <:+: front
  hidesNone : ¬['/', '/'] <:+: front

/-- A text on a line before which a word ends: nothing, or any text after a blank, or a comment
that goes on to the end of the line. -/
def EndsWord (text : List Char) : Prop :=
  AtBlank text ∨ ['/', '/'] <+: text ∧ ¬['/', '*'] <:+: text

/-- The line on which the first type declaration begins. -/
structure TypeLine where
  before : List Char
  word : List Char
  after : List Char
  isClear : IsClear before
  isTypeWord : word ∈ typeWords
  endsWord : EndsWord after
  single : '\n' ∉ before ∧ '\n' ∉ after

def TypeLine.text (line : TypeLine) : List Char :=
  line.before ++ (line.word ++ line.after)

/-- The line with what follows it in the file: nothing, or the text after a line feed. -/
def TypeLine.followedBy (line : TypeLine) : Option (List Char) → List Char
  | none => line.text
  | some body => line.text ++ '\n' :: body

/-! ## What a statement does not hold -/

/-- A text that can be the name in a statement. -/
structure IsPlain (text : List Char) : Prop where
  nonempty : text ≠ []
  solid : IsSolid text
  semicolon : ';' ∉ text
  slash : '/' ∉ text

theorem isPlain_of_forall {text : List Char} (nonempty : text ≠ [])
    (each : ∀ character ∈ text,
      isNameCharacter character = true ∨ character = '.' ∨ character = '*') :
    IsPlain text := by
  have other {character : Char} (member : character ∈ text) :
      Text.isBlank character = false ∧ character ≠ ';' ∧ character ≠ '/' := by
    rcases each character member with isName | rfl | rfl
    · rw [isNameCharacter, Bool.and_eq_true, Bool.not_eq_true'] at isName
      refine ⟨isName.1, ?_, ?_⟩ <;> rintro rfl <;> exact absurd isName.2 (by decide)
    · decide
    · decide
  constructor
  · exact nonempty
  · intro character member
    exact (other member).1
  · intro member
    exact (other member).2.1 rfl
  · intro member
    exact (other member).2.2 rfl

theorem DottedName.mem_text {name : DottedName} {character : Char}
    (member : character ∈ name.text) : isNameCharacter character = true ∨ character = '.' := by
  have inSegment {segment : Segment} (inside : character ∈ segment.text) :
      isNameCharacter character = true :=
    List.all_eq_true.1 segment.isName character inside
  rw [text, List.mem_append, List.mem_flatMap] at member
  rcases member with inFirst | ⟨segment, -, inside⟩
  · exact .inl (inSegment inFirst)
  · rcases List.mem_cons.1 inside with rfl | inside
    · exact .inr rfl
    · exact .inl (inSegment inside)

theorem DottedName.isPlain (name : DottedName) : IsPlain name.text := by
  apply isPlain_of_forall
  · simp [text, name.first.nonempty]
  · intro character member
    rcases mem_text member with isName | isDot
    · exact .inl isName
    · exact .inr (.inl isDot)

theorem Target.isPlain (target : Target) : IsPlain target.text := by
  apply isPlain_of_forall
  · simp [text, target.name.isPlain.nonempty]
  · intro character member
    rw [text, List.mem_append] at member
    rcases member with inName | inMark
    · rcases DottedName.mem_text inName with isName | isDot
      · exact .inl isName
      · exact .inr (.inl isDot)
    · split at inMark
      · exact .inr (by simpa using inMark)
      · cases inMark

namespace IsPlain

variable {name : List Char}

theorem trimStart_append (plain : IsPlain name) (rest : List Char) :
    trimStart (name ++ rest) = name ++ rest := by
  obtain ⟨first, others, rfl⟩ := List.exists_cons_of_ne_nil plain.nonempty
  exact Text.trimStart_cons_solid (plain.solid first List.mem_cons_self) _

theorem trimEnd_append (plain : IsPlain name) (front : List Char) :
    trimEnd (front ++ name) = front ++ name := by
  have kept := Text.trimEnd_append_word plain.nonempty plain.solid front []
  rwa [show trimEnd [] = [] from rfl, List.append_nil] at kept

theorem trim_append (plain : IsPlain name) (rest : List Char) :
    trim (name ++ rest) = name ++ trimEnd rest := by
  rw [trim, plain.trimStart_append]
  exact Text.trimEnd_append_word plain.nonempty plain.solid [] rest

theorem trim_eq (plain : IsPlain name) : trim name = name := by
  have kept := plain.trim_append []
  rwa [show trimEnd [] = [] from rfl, List.append_nil] at kept

end IsPlain

theorem isPlain_packageWord : IsPlain packageWord := by
  constructor <;> decide

theorem isPlain_importWord : IsPlain importWord := by
  constructor <;> decide

theorem isPlain_staticWord : IsPlain staticWord := by
  constructor <;> decide

theorem isPlain_of_mem_typeWords {word : List Char} (isTypeWord : word ∈ typeWords) :
    IsPlain word := by
  have each : ∀ word ∈ typeWords, word ≠ [] ∧ IsSolid word ∧ ';' ∉ word ∧ '/' ∉ word := by decide
  obtain ⟨nonempty, solid, semicolon, slash⟩ := each word isTypeWord
  exact ⟨nonempty, solid, semicolon, slash⟩

/-- A character that stands neither in the words of a statement nor in the blanks between them. -/
structure IsForeign (character : Char) : Prop where
  notInBlanks : ∀ blanks : Blanks, character ∉ blanks.text
  notInName : ∀ name, IsPlain name → character ∉ name

theorem Blanks.not_mem {character : Char} (solid : Text.isBlank character = false)
    (blanks : Blanks) : character ∉ blanks.text :=
  Text.not_mem_of_blank blanks.isBlank solid

theorem isForeign_slash : IsForeign '/' :=
  ⟨Blanks.not_mem (by decide), fun _ plain => plain.slash⟩

theorem isForeign_semicolon : IsForeign ';' :=
  ⟨Blanks.not_mem (by decide), fun _ plain => plain.semicolon⟩

theorem isForeign_lineFeed : IsForeign '\n' := by
  refine ⟨Blanks.single, fun name plain member => ?_⟩
  cases plain.solid '\n' member

section Foreign

variable {character : Char} (foreign : IsForeign character)

include foreign

theorem PackageStatement.not_mem_body (statement : PackageStatement) :
    character ∉ statement.body := by
  simp only [body, List.mem_append, not_or]
  exact ⟨foreign.notInName _ isPlain_packageWord, foreign.notInBlanks _,
    foreign.notInName _ statement.name.isPlain, foreign.notInBlanks _⟩

theorem ImportStatement.not_mem_body (statement : ImportStatement) :
    character ∉ statement.body := by
  have static : character ∉ staticText statement.static := by
    cases statement.static with
    | none => exact List.not_mem_nil
    | some space =>
        rw [staticText, List.mem_append, not_or]
        exact ⟨foreign.notInName _ isPlain_staticWord, foreign.notInBlanks _⟩
  simp only [body, List.mem_append, not_or]
  exact ⟨foreign.notInBlanks _, foreign.notInName _ isPlain_importWord, foreign.notInBlanks _,
    static, foreign.notInName _ statement.target.isPlain, foreign.notInBlanks _⟩

variable (other : character ≠ ';')

include other

theorem PackageStatement.not_mem_text (statement : PackageStatement) :
    character ∉ statement.text := by
  rw [text, List.mem_append, not_or, List.mem_singleton]
  exact ⟨statement.not_mem_body foreign, other⟩

theorem ImportStatement.not_mem_flatMap_text (statements : List ImportStatement) :
    character ∉ statements.flatMap (·.text) := by
  rw [List.mem_flatMap]
  rintro ⟨statement, -, member⟩
  rw [text, List.mem_append, List.mem_singleton] at member
  exact member.elim (statement.not_mem_body foreign) other

end Foreign

/-! ## Lines are single -/

theorem Margin.lineFeed_not_mem (margin : Margin) : '\n' ∉ margin.text := by
  obtain ⟨blanks, _ | comment⟩ := margin
  · simpa [text] using blanks.single
  · simpa [text] using ⟨blanks.single, comment.single⟩

theorem BlockComment.lineFeed_not_mem {comment : BlockComment} {line : List Char}
    (member : line ∈ comment.lines) : '\n' ∉ line := by
  simp only [lines, List.mem_cons, List.mem_append, List.not_mem_nil, or_false] at member
  rcases member with rfl | inMiddle | rfl
  · simpa using ⟨comment.indentation.single, comment.firstSingle⟩
  · exact comment.middleSingle line inMiddle
  · simpa using ⟨comment.lastSingle, comment.margin.single⟩

theorem Item.lineFeed_not_mem {item : Item} {line : List Char} (member : line ∈ item.lines) :
    '\n' ∉ line := by
  cases item with
  | package indentation statement margin =>
      rw [List.mem_singleton.1 member]
      simp only [List.mem_append, not_or]
      exact ⟨⟨indentation.single, statement.not_mem_text isForeign_lineFeed (by decide)⟩,
        margin.lineFeed_not_mem⟩
  | imports statements margin =>
      rw [List.mem_singleton.1 member]
      simp only [List.mem_append, not_or]
      exact ⟨ImportStatement.not_mem_flatMap_text isForeign_lineFeed (by decide) statements,
        margin.lineFeed_not_mem⟩
  | block comment => exact BlockComment.lineFeed_not_mem member

end ClassAtlas.SourceHeader
