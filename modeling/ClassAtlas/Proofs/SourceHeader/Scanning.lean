import ClassAtlas.Proofs.SourceHeader.Layout

/-!
# What lines hold besides comments

The lines of a header are read with the state whether a block comment is open.  Outside of one,
what becomes of a line depends on what its first comment looks like (`statementLine_slash`): a
comment up to the end of the line is taken off (`statementLine_remark`), and so is a block comment
that goes on to the next line (`statementLine_block`), but one that ends on its line is left in
place (`statementLine_aside`).  A line of a block comment holds nothing but what follows the end
of the comment (`statementLine_inside`, `statementLine_ending`).  No statement holds a type word
by itself, but the line of a type declaration does, whatever comments follow on it
(`TypeLine.declaresType_statementLine`).
-/

namespace ClassAtlas.SourceHeader

open Text (trim trimStart trimEnd words isBlank isBlankText IsSolid AtBlank cut dropReturn)

/-! ## Comments -/

theorem statementLine_dropReturn (isOpen : Bool) (line : List Char) :
    statementLine isOpen (dropReturn line) = statementLine isOpen line := by
  rw [statementLine, statementLine, Text.trim_dropReturn]

/-- The characters with which a comment begins behind a slash. -/
def commentSigns : List Char := ['/', '*']

/-- No comment begins in the text. -/
def IsCode (text : List Char) : Prop := ∀ sign ∈ commentSigns, ¬['/', sign] <:+: text

instance (text : List Char) : Decidable (IsCode text) :=
  List.decidableBAll (fun sign => ¬['/', sign] <:+: text) commentSigns

/-- The text before a comment that goes on to the end of the line. -/
def beforeRemark (text : List Char) : List Char :=
  ((cut ['/', '/'] text).map (·.1)).getD text

section Comments

variable {sign : Char} {front text : List Char}

theorem IsCode.of_isInfix (isCode : IsCode text) (inside : front <:+: text) : IsCode front :=
  fun sign isSign occurs => isCode sign isSign (occurs.trans inside)

theorem isCode_of_not_mem (absent : '/' ∉ front) : IsCode (front ++ ['/']) := by
  intro sign isSign occurs
  have short := (Text.infix_of_infix_append absent occurs).length_le
  simp at short

theorem IsCode.trimStart (isCode : IsCode (front ++ ['/'])) :
    IsCode (trimStart front ++ ['/']) :=
  isCode.of_isInfix (Text.trimStart_append_isSuffix front ['/']).isInfix

/-- No comment mark is found before the slash. -/
theorem IsCode.cut_append (isCode : IsCode (front ++ ['/'])) (isSign : sign ∈ commentSigns)
    (text : List Char) :
    cut ['/', sign] (front ++ '/' :: text) =
      (cut ['/', sign] ('/' :: text)).map fun (before, after) => (front ++ before, after) := by
  apply Text.cut_append_of_other
  intro stretch ending nonempty start
  have longer : stretch ++ ['/'] <+: stretch ++ '/' :: text :=
    ⟨text, by rw [List.append_assoc, List.singleton_append]⟩
  have long : ['/', sign].length ≤ (stretch ++ ['/']).length := by
    have positive := List.length_pos_iff.2 nonempty
    rw [List.length_append]
    exact Nat.add_le_add_right positive 1
  have inside := List.prefix_of_prefix_length_le start longer long
  obtain ⟨leading, rfl⟩ := ending
  refine isCode sign isSign (inside.isInfix.trans ?_)
  exact ⟨leading, [], by rw [List.append_nil, List.append_assoc]⟩

theorem isSolid_mark (isSign : sign ∈ commentSigns) : IsSolid ['/', sign] := by
  obtain rfl | rfl : sign = '/' ∨ sign = '*' := by
    simpa only [commentSigns, List.mem_cons, List.not_mem_nil, or_false] using isSign
  · decide
  · decide

/-- Blanks around the line are left on both sides of the mark. -/
theorem IsCode.cut_trim (isCode : IsCode (front ++ ['/'])) (isSign : sign ∈ commentSigns)
    (text : List Char) :
    cut ['/', sign] (trim (front ++ '/' :: text)) =
      (cut ['/', sign] ('/' :: text)).map fun (before, after) =>
        (Text.trimStart front ++ before, trimEnd after) := by
  rw [Text.trim_append_solid (by decide), isCode.trimStart.cut_append isSign,
    ← Text.trimEnd_cons_solid (by decide),
    Text.cut_trimEnd (List.cons_ne_nil _ _) (isSolid_mark isSign), Option.map_map]
  rfl

/-- Where no comment begins, the line is left as it is. -/
theorem IsCode.upTo (isCode : IsCode text) : upTo ['/', '/'] text = text := by
  rw [SourceHeader.upTo, Text.cut_eq_none (isCode '/' (by decide))]

theorem IsCode.statementLine (isCode : IsCode text) :
    statementLine false text = (trim text, false) := by
  have isCode := isCode.of_isInfix (Text.trim_isInfix text)
  rw [SourceHeader.statementLine, if_neg Bool.false_ne_true, outsideComment,
    Text.cut_eq_none (isCode '*' (by decide)), isCode.upTo]

/-- A comment mark is kept. -/
theorem trimEnd_slash (solid : isBlank sign = false) (text : List Char) :
    trimEnd ('/' :: sign :: text) = '/' :: sign :: trimEnd text := by
  rw [Text.trimEnd_cons_solid (by decide), Text.trimEnd_cons_solid solid]

/-- A comment up to the end of the line is sought from the first slash on. -/
theorem upTo_trim (isCode : IsCode (front ++ ['/'])) (text : List Char) :
    upTo ['/', '/'] (trim (front ++ '/' :: text)) =
      trim (front ++ beforeRemark ('/' :: text)) := by
  rw [upTo, isCode.cut_trim (by decide), beforeRemark]
  cases cut ['/', '/'] ('/' :: text) with
  | none => rfl
  | some sides => exact Text.trim_trimStart_append front sides.1

/-- A block comment is sought from the first slash on, and it goes on as long as it has no end. -/
theorem statementLine_slash (isCode : IsCode (front ++ ['/'])) (text : List Char) :
    statementLine false (front ++ '/' :: text) =
      match cut ['/', '*'] ('/' :: text) with
      | some (before, after) =>
          if ['*', '/'] <:+: '/' :: '*' :: after then
            (trim (front ++ beforeRemark ('/' :: text)), false)
          else (upTo ['/', '/'] (trim (front ++ before)), true)
      | none => (trim (front ++ beforeRemark ('/' :: text)), false) := by
  rw [statementLine, if_neg Bool.false_ne_true, outsideComment, isCode.cut_trim (by decide),
    upTo_trim isCode]
  cases cut ['/', '*'] ('/' :: text) with
  | none => rfl
  | some sides =>
      obtain ⟨before, after⟩ := sides
      have closes : Text.contains ['*', '/'] ('/' :: '*' :: trimEnd after) = true ↔
          ['*', '/'] <:+: '/' :: '*' :: after := by
        rw [Text.contains_iff (List.cons_ne_nil _ _), ← trimEnd_slash (by decide)]
        constructor
        · intro occurs
          exact occurs.trans (Text.trimEnd_isPrefix _).isInfix
        · exact Text.isInfix_trimEnd (List.cons_ne_nil _ _) (by decide)
      simp only [Option.map_some, closes, Text.trim_trimStart_append]

/-- A comment up to the end of the line is taken off, when no block comment seems to begin in it
that goes on to the next line. -/
theorem statementLine_remark {comment : List Char} (isCode : IsCode (front ++ ['/']))
    (closes : ∀ sides ∈ cut ['/', '*'] ('/' :: '/' :: comment),
      ['*', '/'] <:+: '/' :: '*' :: sides.2) :
    statementLine false (front ++ '/' :: '/' :: comment) = (trim front, false) := by
  have none : beforeRemark ('/' :: '/' :: comment) = [] := by
    have atFront : cut ['/', '/'] ('/' :: '/' :: comment) = some ([], comment) :=
      Text.cut_append (List.cons_ne_nil _ _) comment
    rw [beforeRemark, atFront]
    rfl
  rw [statementLine_slash isCode, none, List.append_nil]
  cases opening : cut ['/', '*'] ('/' :: '/' :: comment) with
  | none => rfl
  | some sides => exact if_pos (closes sides opening)

theorem cut_block (text : List Char) : cut ['/', '*'] ('/' :: '*' :: text) = some ([], text) :=
  Text.cut_append (List.cons_ne_nil _ _) text

/-- A block comment that goes on to the next line is taken off. -/
theorem statementLine_block (isCode : IsCode (front ++ ['/']))
    (goesOn : ¬['*', '/'] <:+: '/' :: '*' :: text) :
    statementLine false (front ++ '/' :: '*' :: text) = (trim front, true) := by
  have isCodeFront : IsCode (trim front) := by
    apply isCode.of_isInfix
    exact (Text.trim_isInfix front).trans (List.prefix_append _ _).isInfix
  rw [statementLine_slash isCode, cut_block]
  simp only [goesOn, if_false, List.append_nil, isCodeFront.upTo]

/-- A block comment that ends on its line is left in place, up to what seems to be another
comment in it or after it. -/
theorem statementLine_aside (isCode : IsCode (front ++ ['/']))
    (ends : ['*', '/'] <:+: '/' :: '*' :: text) :
    statementLine false (front ++ '/' :: '*' :: text) =
      (trim (front ++ beforeRemark ('/' :: '*' :: text)), false) := by
  rw [statementLine_slash isCode, cut_block]
  exact if_pos ends

end Comments

/-- What stands on a line besides its statements is taken off. -/
theorem statementLine_margin {body : List Char} (absent : '/' ∉ body) (margin : Margin) :
    statementLine false (body ++ margin.text) = (trim body, false) := by
  obtain ⟨blanks, comment⟩ := margin
  have isCode : IsCode (body ++ blanks.text ++ ['/']) := by
    apply isCode_of_not_mem
    rw [List.mem_append, not_or]
    exact ⟨absent, isForeign_slash.notInBlanks _⟩
  rw [← Text.trim_append_of_blank blanks.isBlank body]
  cases comment with
  | none =>
      rw [Margin.text, List.append_nil]
      exact (isCode.of_isInfix (List.prefix_append _ _).isInfix).statementLine
  | some comment =>
      rw [Margin.text, ← List.append_assoc]
      apply statementLine_remark isCode
      intro sides found
      refine absurd ?_ comment.opensNone
      exact ⟨sides.1, sides.2, (Text.cut_eq_some found).symm⟩

/-- The first line of a block comment opens it. -/
theorem statementLine_opening (indentation : Blanks) {text : List Char}
    (closes : ¬['*', '/'] <:+: '/' :: '*' :: text) :
    statementLine false (indentation.text ++ '/' :: '*' :: text) = ([], true) := by
  have isCode := isCode_of_not_mem (isForeign_slash.notInBlanks indentation)
  rw [statementLine_block isCode closes, Text.trim_of_blank indentation.isBlank]

/-- A line without its end goes on with a block comment. -/
theorem statementLine_inside {line : List Char} (closes : ¬['*', '/'] <:+: line) :
    statementLine true line = ([], true) := by
  have none : cut ['*', '/'] (trim line) = none :=
    Text.cut_eq_none fun occurs => closes (occurs.trans (Text.trim_isInfix line))
  rw [statementLine, if_pos rfl, none]

/-- What follows the end of a block comment is read as a line outside of comments. -/
theorem statementLine_ending {inside : List Char} (first : ¬['*', '/'] <:+: inside ++ ['*'])
    (rest : List Char) :
    statementLine true (inside ++ '*' :: '/' :: rest) = statementLine false rest := by
  have line : trim (inside ++ '*' :: '/' :: rest) =
      trimStart inside ++ (['*', '/'] ++ trimEnd rest) := by
    rw [Text.trim_append_solid (by decide), Text.trimEnd_cons_solid (by decide)]
    rfl
  have absent : ¬['*', '/'] <:+: trimStart inside ++ ['*'] := by
    intro occurs
    exact first (occurs.trans (Text.trimStart_append_isSuffix inside ['*']).isInfix)
  have found := Text.cut_append_mark (List.cons_ne_nil _ _) absent (trimEnd rest)
  rw [statementLine, if_pos rfl, line, found]
  simp only [Text.trim_trimEnd, statementLine, Bool.false_eq_true, if_false]

/-- The last line of a block comment closes it. -/
theorem statementLine_closing {text : List Char} (closes : ¬['*', '/'] <:+: text ++ ['*'])
    (blanks : Blanks) :
    statementLine true (text ++ '*' :: '/' :: blanks.text) = ([], false) := by
  have isCode := isCode_of_not_mem (isForeign_slash.notInBlanks blanks)
  rw [statementLine_ending closes,
    (isCode.of_isInfix (List.prefix_append _ _).isInfix).statementLine,
    Text.trim_of_blank blanks.isBlank]

/-! ## Type words -/

theorem declaresType_iff {line : List Char} :
    declaresType line = true ↔ ∃ word ∈ typeWords, word ∈ words isBlank line := by
  simp [declaresType, and_comm]

theorem Space.atBlank_append (space : Space) (text : List Char) :
    AtBlank (space.text ++ text) :=
  Text.atBlank_append_of_blank space.isBlank space.nonempty text

section TypeWords

variable {word text : List Char}

/-- A keyword is not the type word that is sought. -/
theorem mem_words_of_keyword {keyword : List Char} (plain : IsPlain keyword)
    (other : word ≠ keyword) (space : Space)
    (member : word ∈ words isBlank (keyword ++ (space.text ++ text))) :
    word ∈ words isBlank text := by
  rw [Text.words_append_atBlank plain.nonempty plain.solid (space.atBlank_append text),
    Text.words_of_blank_append space.isBlank] at member
  exact (List.mem_cons.1 member).resolve_left other

/-- The name in a statement is not the type word that is sought: the semicolon belongs to the same
word, or the name is no type word. -/
theorem mem_words_of_name {name : List Char} (plain : IsPlain name) (gap : Gap name)
    (isTypeWord : word ∈ typeWords)
    (member : word ∈ words isBlank (name ++ (gap.text ++ ';' :: text))) :
    word ∈ words isBlank text := by
  have absent := (isPlain_of_mem_typeWords isTypeWord).semicolon
  by_cases touches : gap.text = []
  · rw [touches, List.nil_append] at member
    apply Text.mem_words_of_mem_append _ absent member
    intro character inside
    rcases List.mem_append.1 inside with inName | isSemicolon
    · exact plain.solid character inName
    · rw [List.mem_singleton.1 isSemicolon]
      decide
  · let space : Space := ⟨gap.toBlanks, touches⟩
    have other : word ≠ name := by
      rintro rfl
      exact gap.apart.resolve_left touches isTypeWord
    have left : word ∈ words isBlank ([] ++ ';' :: text) :=
      mem_words_of_keyword plain other space member
    exact Text.mem_words_of_mem_append (by decide) absent left

/-- No type word is among the words of a statement. -/
theorem PackageStatement.mem_words {statement : PackageStatement} (isTypeWord : word ∈ typeWords)
    (member : word ∈ words isBlank (statement.text ++ text)) : word ∈ words isBlank text := by
  have other : word ≠ packageWord := by
    rintro rfl
    exact absurd isTypeWord (by decide)
  simp only [PackageStatement.text, body, List.append_assoc, List.singleton_append] at member
  have afterKeyword := mem_words_of_keyword isPlain_packageWord other statement.space member
  exact mem_words_of_name statement.name.isPlain statement.gap isTypeWord afterKeyword

@[inherit_doc PackageStatement.mem_words]
theorem ImportStatement.mem_words {statement : ImportStatement} (isTypeWord : word ∈ typeWords)
    (member : word ∈ words isBlank (statement.text ++ text)) : word ∈ words isBlank text := by
  have other : word ≠ importWord ∧ word ≠ staticWord := by
    constructor <;> rintro rfl <;> exact absurd isTypeWord (by decide)
  simp only [ImportStatement.text, body, List.append_assoc, List.singleton_append] at member
  rw [Text.words_of_blank_append statement.indentation.isBlank] at member
  have afterKeyword := mem_words_of_keyword isPlain_importWord other.1 statement.space member
  have afterStatic :
      word ∈ words isBlank (statement.target.text ++ (statement.gap.text ++ ';' :: text)) := by
    cases isStatic : statement.static with
    | none =>
        rw [isStatic] at afterKeyword
        exact afterKeyword
    | some space =>
        rw [isStatic, staticText, List.append_assoc] at afterKeyword
        exact mem_words_of_keyword isPlain_staticWord other.2 space afterKeyword
  exact mem_words_of_name statement.target.isPlain statement.gap isTypeWord afterStatic

end TypeWords

theorem PackageStatement.declaresType_text (statement : PackageStatement) :
    declaresType statement.text = false := by
  rw [Bool.eq_false_iff, ne_eq, declaresType_iff]
  rintro ⟨word, isTypeWord, member⟩
  rw [← List.append_nil statement.text] at member
  have left := statement.mem_words isTypeWord member
  rw [Text.words_nil] at left
  cases left

theorem ImportStatement.declaresType_line (statements : List ImportStatement) :
    declaresType (trim (statements.flatMap (·.text))) = false := by
  rw [Bool.eq_false_iff, ne_eq, declaresType_iff]
  rintro ⟨word, isTypeWord, member⟩
  rw [Text.words_trim] at member
  induction statements with
  | nil =>
      rw [List.flatMap_nil, Text.words_nil] at member
      cases member
  | cons statement statements ih =>
      rw [List.flatMap_cons] at member
      exact ih (statement.mem_words isTypeWord member)

/-! ## The line of a type declaration -/

section TypeLines

variable {front word text : List Char}

/-- Blanks at the start of the line do not count. -/
theorem IsClear.trimStart (isClear : IsClear front) : IsClear (trimStart front) := by
  have ending : Text.trimStart front <:+ front := List.dropWhile_suffix isBlank
  constructor
  · exact isClear.beginsWord.of_isPrefix (List.reverse_prefix.2 ending)
  · intro occurs
    exact isClear.opensNone (occurs.trans ending.isInfix)
  · intro occurs
    exact isClear.hidesNone (occurs.trans ending.isInfix)

theorem EndsWord.trimEnd (ends : EndsWord text) : EndsWord (trimEnd text) := by
  rcases ends with atBlank | ⟨⟨comment, rfl⟩, opensNone⟩
  · exact .inl atBlank.trimEnd
  · right
    constructor
    · exact ⟨Text.trimEnd comment, (trimEnd_slash (by decide) comment).symm⟩
    · exact Text.not_infix_trimEnd opensNone

/-- A type word that stands alone in the rest of a line stands alone on the line. -/
theorem declaresType_append (begins : AtBlank front.reverse) (declares : declaresType text = true) :
    declaresType (front ++ text) = true := by
  obtain ⟨word, isTypeWord, member⟩ := declaresType_iff.1 declares
  refine declaresType_iff.2 ⟨word, isTypeWord, ?_⟩
  rcases List.eq_nil_or_concat front with rfl | ⟨others, blank, rfl⟩
  · exact member
  · have space : isBlank blank = true := begins blank (by simp)
    rw [List.concat_eq_append, List.append_assoc, List.singleton_append,
      Text.words_append_blank space]
    exact List.mem_append_right _ member

/-- A type word is found where it stands alone. -/
theorem declaresType_of_word (isTypeWord : word ∈ typeWords) (begins : AtBlank front.reverse)
    (ends : AtBlank text) : declaresType (front ++ (word ++ text)) = true := by
  have plain := isPlain_of_mem_typeWords isTypeWord
  have member : word ∈ words isBlank (word ++ text) := by
    rw [Text.words_append_atBlank plain.nonempty plain.solid ends]
    exact List.mem_cons_self
  exact declaresType_append begins (declaresType_iff.2 ⟨word, isTypeWord, member⟩)

/-- A comment mark is found only after a type word that stands alone. -/
theorem cut_typeWord (isTypeWord : word ∈ typeWords) (begins : AtBlank front.reverse) {sign : Char}
    (solid : isBlank sign = false) (absent : ¬['/', sign] <:+: front) (text : List Char) :
    cut ['/', sign] (front ++ (word ++ text)) =
      (cut ['/', sign] text).map fun (before, after) => (front ++ (word ++ before), after) := by
  have apart : ∀ character ∈ front.getLast?, character ∉ ['/', sign] := by
    intro character last member
    rw [← List.head?_reverse] at last
    have blank := begins character last
    rcases List.mem_pair.1 member with rfl | rfl
    · cases blank
    · rw [solid] at blank
      cases blank
  rw [Text.cut_append_of_apart absent apart,
    Text.cut_append_of_not_mem (isPlain_of_mem_typeWords isTypeWord).slash, Option.map_map]
  rfl

/-- A type word is found before a comment that goes on to the end of the line. -/
theorem declaresType_upTo (isTypeWord : word ∈ typeWords) (isClear : IsClear front)
    (ends : EndsWord text) : declaresType (upTo ['/', '/'] (front ++ (word ++ text))) = true := by
  rw [upTo, cut_typeWord isTypeWord isClear.beginsWord (by decide) isClear.hidesNone]
  cases found : cut ['/', '/'] text with
  | none =>
      have atBlank : AtBlank text := by
        refine ends.resolve_right fun comment => ?_
        exact Text.not_infix_of_cut (List.cons_ne_nil _ _) found comment.1.isInfix
      exact declaresType_of_word isTypeWord isClear.beginsWord atBlank
  | some sides =>
      obtain ⟨before, after⟩ := sides
      have atBlank : AtBlank before := by
        rcases ends with atBlank | ⟨⟨comment, rfl⟩, -⟩
        · apply atBlank.of_isPrefix
          rw [Text.cut_eq_some found, List.append_assoc]
          exact List.prefix_append _ _
        · rw [Text.cut_append (List.cons_ne_nil _ _)] at found
          cases found
          rintro _ ⟨⟩
      rw [Option.map_some]
      simp only [declaresType, Text.words_trim]
      exact declaresType_of_word isTypeWord isClear.beginsWord atBlank

theorem trim_typeWord (isTypeWord : word ∈ typeWords) (text : List Char) :
    trim (front ++ (word ++ text)) = trimStart front ++ (word ++ trimEnd text) := by
  have plain := isPlain_of_mem_typeWords isTypeWord
  have start : trimStart (front ++ (word ++ text)) = trimStart front ++ (word ++ text) := by
    obtain ⟨first, others, rfl⟩ := List.exists_cons_of_ne_nil plain.nonempty
    exact Text.trimStart_append_solid (plain.solid first List.mem_cons_self) front _
  rw [trim, start, Text.trimEnd_append_word plain.nonempty plain.solid]

/-- A type word is found on a line that may open a comment after it. -/
theorem declaresType_outsideComment (isTypeWord : word ∈ typeWords) (isClear : IsClear front)
    (ends : EndsWord text) : declaresType (outsideComment (front ++ (word ++ text))).1 = true := by
  rw [outsideComment, cut_typeWord isTypeWord isClear.beginsWord (by decide) isClear.opensNone]
  cases found : cut ['/', '*'] text with
  | none => exact declaresType_upTo isTypeWord isClear ends
  | some sides =>
      obtain ⟨before, after⟩ := sides
      rw [Option.map_some]
      dsimp only
      split
      · exact declaresType_upTo isTypeWord isClear ends
      · have atBlank : AtBlank before := by
          have whole := Text.cut_eq_some found
          rcases ends with atBlank | ⟨-, opensNone⟩
          · apply atBlank.of_isPrefix
            rw [whole, List.append_assoc]
            exact List.prefix_append _ _
          · exact absurd ⟨before, after, whole.symm⟩ opensNone
        rw [trim_typeWord isTypeWord]
        exact declaresType_upTo isTypeWord isClear.trimStart (.inl atBlank.trimEnd)

/-- The line of a type declaration ends the header. -/
theorem TypeLine.declaresType_statementLine (line : TypeLine) :
    declaresType (statementLine false line.text).1 = true := by
  rw [statementLine, if_neg Bool.false_ne_true, text, trim_typeWord line.isTypeWord]
  exact declaresType_outsideComment line.isTypeWord line.isClear.trimStart line.endsWord.trimEnd

theorem TypeLine.single_text (line : TypeLine) : '\n' ∉ line.text := by
  simp only [text, List.mem_append, not_or]
  exact ⟨line.single.1,
    isForeign_lineFeed.notInName _ (isPlain_of_mem_typeWords line.isTypeWord), line.single.2⟩

theorem TypeLine.exists_lines_followedBy (line : TypeLine) (body : Option (List Char)) :
    ∃ first others, Text.lines (line.followedBy body) = first :: others ∧
      statementLine false first = statementLine false line.text := by
  have single := line.single_text
  have nonempty : line.text ≠ [] := by
    simp [text, (isPlain_of_mem_typeWords line.isTypeWord).nonempty]
  cases body with
  | none => exact ⟨line.text, [], Text.lines_of_single nonempty single, rfl⟩
  | some body =>
      exact ⟨_, _, Text.lines_append_lineFeed single body, statementLine_dropReturn false line.text⟩

end TypeLines

end ClassAtlas.SourceHeader
