import ClassAtlas.Proofs.SourceHeader.Recovery
import ClassAtlas.Proofs.SourceHeader.Stripping

/-!
# Comments in headers

Taking the comments out of a source text first does not change its header, as long as each of its
lines up to the first type declaration is of a tame kind (`IsTame`): the comment on it goes on to
the next line, or ends with the line and seems to open no other one, or stands aside from what
the line declares.  Other comments on a single line are left in place and do change the header.
-/

namespace ClassAtlas.SourceHeader

open Text (trim trimStart trimEnd isBlank isBlankText IsSolid AtBlank cut)

/-! ## What a line gives -/

/-- What the header takes from a line. -/
structure Reading where
  declaresType : Bool
  package? : Option (List Char)
  imports : List (List Char)

def reading (statement : List Char) : Reading where
  declaresType := declaresType statement
  package? := packageIn? statement
  imports := (statement.splitOn ';').filterMap importIn?

/-- What the header takes from lines, up to the first type declaration. -/
def readings (isOpen : Bool) (lines : List (List Char)) : List Reading :=
  ((statementLines isOpen lines).map reading).takeWhile (!·.declaresType)

theorem readings_cons (isOpen : Bool) (line : List Char) (rest : List (List Char)) :
    readings isOpen (line :: rest) =
      if (reading (statementLine isOpen line).1).declaresType then []
      else reading (statementLine isOpen line).1 ::
        readings (statementLine isOpen line).2 rest := by
  rw [readings, statementLines, List.map_cons, List.takeWhile_cons]
  cases declared : (reading (statementLine isOpen line).1).declaresType <;> rfl

/-- Neither the carriage returns at the ends of lines nor a line feed at the end of the text
matter. -/
theorem headerLines_ended (isOpen : Bool) (pieces : List (List Char)) :
    ((statementLines isOpen (Text.lines.ended pieces)).takeWhile (!declaresType ·)).filter
        (!·.isEmpty) =
      ((statementLines isOpen pieces).takeWhile (!declaresType ·)).filter (!·.isEmpty) := by
  fun_induction Text.lines.ended pieces generalizing isOpen with
  | case1 => rfl
  | case2 last empty =>
      have none : (statementLine isOpen last).1 = [] := by
        rw [List.isEmpty_iff.1 empty]
        cases isOpen <;> rfl
      have idle : declaresType [] = false := by decide
      simp [statementLines, none, idle]
  | case3 last => rfl
  | case4 line next rest ih =>
      rw [statementLines_cons, statementLines, List.takeWhile_cons, List.takeWhile_cons]
      split
      · rw [List.filter_cons, List.filter_cons, ih]
      · rfl

theorem ofSource_eq (source : String) :
    ofSource source =
      { package := ((readings false (source.toList.splitOn '\n')).findSome? (·.package?)).map
          String.ofList
        imports := ((readings false (source.toList.splitOn '\n')).flatMap (·.imports)).map
          String.ofList } := by
  have header : headerLines source.toList =
      ((statementLines false (source.toList.splitOn '\n')).takeWhile (!declaresType ·)).filter
        (!·.isEmpty) := headerLines_ended false _
  rw [ofSource, packageOf?, importsOf, header, findSome?_filter, filterMap_flatMap_filter,
    readings, List.takeWhile_map, List.findSome?_map, List.flatMap_map, List.filterMap_flatMap]
  rfl

/-! ## Comments aside -/

/-- Nothing but blanks and comments, the last of which ends at the latest with the line. -/
def IsRest (text : List Char) : Prop :=
  isBlankText (strip .code text).1 = true ∧ (strip .code text).2 ≠ .block

/-- What stands before a comment on a line, such that the comment can be left in place: no package
statement, no import that still needs its semicolon, and at its end a blank or a semicolon. -/
structure IsApart (front : List Char) : Prop where
  ends : ∀ character ∈ front.getLast?, isBlank character = true ∨ character = ';'
  noPackage : ¬packageWord <+: trimStart front
  noImport : ∀ last ∈ (front.splitOn ';').getLast?, ¬importWord <+: trimStart last

/-- A comment that can be left in place. -/
structure IsIdle (comment : List Char) : Prop where
  single : ';' ∉ comment
  noType : declaresType comment = false

section Asides

variable {front word text : List Char}

/-- A word without slashes does not reach into a comment. -/
theorem prefix_of_prefix_slash (absent : '/' ∉ word) (start : word <+: front ++ '/' :: text) :
    word <+: front := by
  by_cases short : word.length ≤ front.length
  · exact List.prefix_of_prefix_length_le start (List.prefix_append front _) short
  · have longer : front ++ ['/'] <+: front ++ '/' :: text :=
      ⟨text, by rw [List.append_assoc, List.singleton_append]⟩
    have long : (front ++ ['/']).length ≤ word.length := by
      rw [List.length_append, List.length_singleton]
      omega
    have inside := List.prefix_of_prefix_length_le longer start long
    exact absurd (inside.mem (List.mem_append_right front List.mem_cons_self)) absent

theorem afterWord?_of_not_start (absent : ¬word <+: text) : afterWord? word text = none := by
  rw [afterWord?, Text.isPrefixOf?_eq_none_iff.2 absent]
  rfl

theorem packageIn?_of_not_start (absent : ¬packageWord <+: text) : packageIn? text = none := by
  have none : afterWord? "package".toList text = none := afterWord?_of_not_start absent
  rw [packageIn?, none]
  rfl

theorem importIn?_of_not_start (absent : ¬importWord <+: trimStart text) :
    importIn? text = none := by
  have none : afterWord? "import".toList (trim text) = none :=
    afterWord?_of_not_start fun start => absent (start.trans (Text.trimEnd_isPrefix _))
  rw [importIn?, none]
  rfl

theorem importIn?_congr {other : List Char} (same : trim text = trim other) :
    importIn? text = importIn? other := by
  rw [importIn?, importIn?, same]

/-- What is put behind a line without a semicolon counts only for the last statement. -/
theorem imports_append {more : List Char} (single : ';' ∉ more)
    (same : ∀ last ∈ (front.splitOn ';').getLast?, importIn? (last ++ more) = importIn? last) :
    ((front ++ more).splitOn ';').filterMap importIn? =
      (front.splitOn ';').filterMap importIn? := by
  obtain ⟨pieces, last, isLast, split⟩ := Text.exists_splitOn_append ';' front
  have alone := split [] List.not_mem_nil
  rw [List.append_nil, List.append_nil] at alone
  rw [split more single, alone, List.filterMap_append, List.filterMap_append,
    List.filterMap_cons, List.filterMap_cons, same last isLast]

/-- The blanks around a line do not count. -/
theorem imports_trim (text : List Char) :
    ((trim text).splitOn ';').filterMap importIn? = (text.splitOn ';').filterMap importIn? := by
  obtain ⟨blanks, blank, whole⟩ := Text.exists_eq_trimEnd_append (trimStart text)
  have single : ';' ∉ blanks := Text.not_mem_of_blank blank (by decide)
  rw [← ImportStatement.filterMap_splitOn_trimStart text, whole, imports_append single]
  · rfl
  · intro last _
    exact importIn?_congr (Text.trim_append_of_blank blank last)

theorem declaresType_trim (text : List Char) : declaresType (trim text) = declaresType text := by
  rw [declaresType, declaresType, Text.words_trim]

/-- No type word comes in with a comment aside, and none is hidden by it. -/
theorem declaresType_aside (apart : IsApart front) (idle : IsIdle ('/' :: text)) :
    declaresType (front ++ '/' :: text) = declaresType front := by
  have same {word : List Char} (isTypeWord : word ∈ typeWords) :
      word ∈ Text.words isBlank (front ++ '/' :: text) ↔ word ∈ Text.words isBlank front := by
    have outside : word ∉ Text.words isBlank ('/' :: text) := by
      intro member
      exact Bool.false_ne_true (idle.noType.symm.trans (declaresType_iff.2 ⟨_, isTypeWord, member⟩))
    rcases List.eq_nil_or_concat front with rfl | ⟨others, last, rfl⟩
    · simpa using outside
    · rw [List.concat_eq_append, List.append_assoc, List.singleton_append]
      rcases apart.ends last (by simp) with blank | rfl
      · rw [Text.words_append_blank blank, Text.words_append_blank blank, List.mem_append,
          List.mem_append, Text.words_nil, or_iff_left outside, or_iff_left List.not_mem_nil]
      · have absent := (isPlain_of_mem_typeWords isTypeWord).semicolon
        rw [Text.mem_words_append_cons_iff (by decide) absent, or_iff_left]
        intro member
        have alone : IsSolid ([] ++ [';']) := by decide
        exact outside (Text.mem_words_of_mem_append alone absent member)
  rw [Bool.eq_iff_iff, declaresType_iff, declaresType_iff]
  constructor
  · rintro ⟨word, isTypeWord, member⟩
    exact ⟨word, isTypeWord, (same isTypeWord).1 member⟩
  · rintro ⟨word, isTypeWord, member⟩
    exact ⟨word, isTypeWord, (same isTypeWord).2 member⟩

/-- A comment aside changes nothing of what the line gives. -/
theorem reading_aside (apart : IsApart front) (idle : IsIdle ('/' :: text)) :
    reading (trim (front ++ '/' :: text)) = reading (trim front) := by
  have package : packageIn? (trim (front ++ '/' :: text)) = packageIn? (trim front) := by
    have absent : '/' ∉ packageWord := isPlain_packageWord.slash
    rw [Text.trim_append_solid (by decide), packageIn?_of_not_start, packageIn?_of_not_start]
    · intro start
      exact apart.noPackage (start.trans (Text.trimEnd_isPrefix _))
    · intro start
      exact apart.noPackage (prefix_of_prefix_slash absent start)
  have imports : ((front ++ '/' :: text).splitOn ';').filterMap importIn? =
      (front.splitOn ';').filterMap importIn? := by
    apply imports_append idle.single
    intro last isLast
    have noImport := apart.noImport last isLast
    rw [importIn?_of_not_start noImport, importIn?_of_not_start]
    rw [Text.trimStart_append_solid (by decide)]
    intro start
    exact noImport (prefix_of_prefix_slash isPlain_importWord.slash start)
  rw [reading, reading, declaresType_trim, declaresType_trim, declaresType_aside apart idle,
    package, imports_trim, imports_trim, imports]

end Asides

/-! ## Tame lines -/

/-- A line outside of comments of which the comments can be taken out, and where the next line
begins. -/
inductive IsTame : List Char → Place → Prop where
  | plain {line : List Char} (isCode : IsCode line) : IsTame line .code
  /-- A block comment goes on to the next line. -/
  | block {front rest : List Char} (isCode : IsCode (front ++ ['/']))
      (goesOn : ¬['*', '/'] <:+: '/' :: '*' :: rest) :
      IsTame (front ++ '/' :: '*' :: rest) .block
  /-- The rest of the line is a comment, and a block comment that seems to begin in it seems to
  end in it. -/
  | remark {front comment : List Char} (isCode : IsCode (front ++ ['/']))
      (isRest : IsRest ('/' :: '/' :: comment))
      (closes : ∀ sides ∈ cut ['/', '*'] ('/' :: '/' :: comment),
        ['*', '/'] <:+: '/' :: '*' :: sides.2) :
      IsTame (front ++ '/' :: '/' :: comment) .code
  /-- The comments on the rest of the line stand aside. -/
  | aside {front rest : List Char} (isCode : IsCode (front ++ ['/']))
      (isRest : IsRest ('/' :: '*' :: rest)) (isApart : IsApart front)
      (isIdle : IsIdle (beforeRemark ('/' :: '*' :: rest))) :
      IsTame (front ++ '/' :: '*' :: rest) .code

/-- Lines of which the comments can be taken out, up to the first type declaration. -/
inductive AreTame : Place → List (List Char) → Prop where
  | none {place : Place} : AreTame place []
  | inside {line : List Char} {rest : List (List Char)} (goesOn : ¬['*', '/'] <:+: line)
      (tame : AreTame .block rest) : AreTame .block (line :: rest)
  | ending {inside line : List Char} {rest : List (List Char)}
      (first : ¬['*', '/'] <:+: inside ++ ['*']) (tame : AreTame .code (line :: rest)) :
      AreTame .block ((inside ++ '*' :: '/' :: line) :: rest)
  | outside {line : List Char} {next : Place} {rest : List (List Char)}
      (isTame : IsTame line next) (tame : AreTame next rest) : AreTame .code (line :: rest)
  | type (line : TypeLine) (rest : List (List Char)) : AreTame .code (line.text :: rest)
  /-- A type word stands behind comments that end on the line. -/
  | typeBehind {front text : List Char} {rest : List (List Char)} (isCode : IsCode (front ++ ['/']))
      (begins : AtBlank front.reverse) (ends : ['*', '/'] <:+: '/' :: '*' :: text)
      (declares : declaresType (beforeRemark ('/' :: '*' :: text)) = true)
      (remains : declaresType (strip .code ('/' :: '*' :: text)).1 = true) :
      AreTame .code ((front ++ '/' :: '*' :: text) :: rest)

section Tame

variable {front rest text line : List Char} {next : Place}

/-! ### What is left of a line -/

/-- Whether a block comment is open. -/
def Place.isOpen : Place → Bool
  | .block => true
  | .code | .remark => false

theorem Place.next_of_ne {place : Place} (ends : place ≠ .block) : place.next = .code := by
  cases place with
  | code | remark => rfl
  | block => exact absurd rfl ends

/-- Of a block comment that goes on to the next line blanks are left. -/
theorem strip_block (goesOn : ¬['*', '/'] <:+: '/' :: '*' :: rest) :
    strip .code ('/' :: '*' :: rest) = (' ' :: rest.filter isBreak, .block) := by
  have later : ¬['*', '/'] <:+: rest :=
    fun occurs => goesOn (occurs.trans (List.suffix_append ['/', '*'] rest).isInfix)
  rw [strip, strip_of_goesOn later]
  rfl

theorem isBlankText_filter_isBreak (text : List Char) :
    isBlankText (text.filter isBreak) = true := by
  have each : ∀ character, isBreak character = true → isBlank character = true := by
    intro character breaks
    rw [isBreak, Bool.or_eq_true, beq_iff_eq, beq_iff_eq] at breaks
    rcases breaks with rfl | rfl <;> rfl
  rw [isBlankText, List.all_eq_true]
  intro character member
  exact each character (List.mem_filter.1 member).2

/-- Of a line that ends with comments is left what stands before them. -/
theorem strip_rest {sign : Char} (isCode : IsCode (front ++ ['/']))
    (isRest : IsRest ('/' :: sign :: rest)) :
    trim (strip .code (front ++ '/' :: sign :: rest)).1 = trim front ∧
      (strip .code (front ++ '/' :: sign :: rest)).2.next = .code := by
  rw [strip_code_append isCode]
  exact ⟨Text.trim_append_of_blank isRest.1 front, Place.next_of_ne isRest.2⟩

/-- What is left of a line that ends a block comment is what is left of the rest of it. -/
theorem strip_ending {inside : List Char} (first : ¬['*', '/'] <:+: inside ++ ['*'])
    (line : List Char) :
    trim (strip .block (inside ++ '*' :: '/' :: line)).1 = trim (strip .code line).1 ∧
      (strip .block (inside ++ '*' :: '/' :: line)).2 = (strip .code line).2 := by
  have left : strip .block ('*' :: '/' :: line) = strip .code line := by rw [strip]
  have whole : strip .block (inside ++ '*' :: '/' :: line) = _ := strip_block_append first
  rw [whole, left]
  exact ⟨Text.trim_of_blank_append (isBlankText_filter_isBreak inside) _, rfl⟩

/-! ### Reading what is left -/

theorem beforeRemark_block (text : List Char) :
    beforeRemark ('/' :: '*' :: text) = '/' :: beforeRemark ('*' :: text) := by
  have other : ¬['/', '/'] <+: '/' :: '*' :: text := by simp
  rw [beforeRemark, Text.cut_cons_of_other other, beforeRemark]
  cases cut ['/', '/'] ('*' :: text) with
  | none => rfl
  | some sides => rfl

/-- A tame line is read like what is left of it. -/
theorem IsTame.statementLine (tame : IsTame line next) :
    (strip .code line).2.next = next ∧
      (statementLine false line).2 = next.isOpen ∧
      reading (statementLine false line).1 = reading (trim (strip .code line).1) := by
  cases tame with
  | plain isCode =>
      rw [strip_of_isCode isCode, isCode.statementLine]
      exact ⟨rfl, rfl, rfl⟩
  | @block front rest isCode goesOn =>
      have blank : isBlankText (' ' :: rest.filter isBreak) = true :=
        isBlankText_filter_isBreak rest
      rw [strip_code_append isCode, strip_block goesOn, statementLine_block isCode goesOn]
      refine ⟨rfl, rfl, ?_⟩
      rw [← Text.trim_append_of_blank blank front]
      rfl
  | remark isCode isRest closes =>
      obtain ⟨left, place⟩ := strip_rest isCode isRest
      rw [left, place, statementLine_remark isCode closes]
      exact ⟨rfl, rfl, rfl⟩
  | @aside front rest isCode isRest isApart isIdle =>
      obtain ⟨left, place⟩ := strip_rest isCode isRest
      have ends : ['*', '/'] <:+: '/' :: '*' :: rest := by
        by_contra goesOn
        exact isRest.2 (congrArg Prod.snd (strip_block goesOn))
      rw [beforeRemark_block] at isIdle
      rw [left, place, statementLine_aside isCode ends, beforeRemark_block]
      exact ⟨rfl, rfl, reading_aside isApart isIdle⟩

/-- No blank is missing after a word in what is left. -/
theorem EndsWord.strip (ends : EndsWord text) : AtBlank (strip .code text).1 := by
  rcases ends with atBlank | ⟨⟨comment, rfl⟩, -⟩
  · cases text with
    | nil => exact atBlank
    | cons character text =>
        have blank : isBlank character = true := atBlank character rfl
        rw [strip_code_cons]
        · exact Text.atBlank_cons blank _
        · intro sign _ start
          rw [← (List.cons_prefix_cons.1 start).1] at blank
          cases blank
  · have left : (SourceHeader.strip .code (['/', '/'] ++ comment)).1 =
        ' ' :: (SourceHeader.strip .remark comment).1 := by
      rw [List.cons_append, List.cons_append, SourceHeader.strip]
      rfl
    rw [left]
    exact Text.atBlank_cons (by decide) _

/-- What is left of the line of a type declaration is still one. -/
theorem TypeLine.declaresType_strip (line : TypeLine) :
    declaresType (strip .code line.text).1 = true := by
  have isCode : IsCode (line.before ++ line.word ++ line.after.take 1) := by
    intro sign isSign
    have solid : isBlank sign = false ∧ ¬['/', sign] <:+: line.before := by
      rcases List.mem_pair.1 isSign with rfl | rfl
      · exact ⟨by decide, line.isClear.hidesNone⟩
      · exact ⟨by decide, line.isClear.opensNone⟩
    have short : cut ['/', sign] (line.after.take 1) = none := by
      apply Text.cut_eq_none
      intro occurs
      have length := occurs.length_le.trans (List.length_take_le 1 line.after)
      simp at length
    have none := cut_typeWord line.isTypeWord line.isClear.beginsWord solid.1 solid.2
      (line.after.take 1)
    rw [short, Option.map_none, ← List.append_assoc] at none
    exact Text.not_infix_of_cut (List.cons_ne_nil _ _) none
  rw [TypeLine.text, ← List.append_assoc, strip_code_append isCode]
  have whole := declaresType_of_word line.isTypeWord line.isClear.beginsWord line.endsWord.strip
  rwa [← List.append_assoc] at whole

/-! ### Whole texts -/

/-- What is left is read line by line, as it holds no comments. -/
theorem readings_stripLines_cons (place : Place) (line : List Char) (rest : List (List Char)) :
    readings false (stripLines place (line :: rest)) =
      if (reading (trim (strip place line).1)).declaresType then []
      else reading (trim (strip place line).1) ::
        readings false (stripLines (strip place line).2.next rest) := by
  rw [stripLines, readings_cons, (isCode_strip place line).statementLine]

/-- Tame lines are read like what is left of them. -/
theorem readings_stripLines {place : Place} {lines : List (List Char)}
    (tame : AreTame place lines) :
    readings false (stripLines place lines) = readings place.isOpen lines := by
  induction tame with
  | none => rfl
  | @inside line rest goesOn tame ih =>
      have none := Text.trim_of_blank (isBlankText_filter_isBreak line)
      rw [readings_stripLines_cons, strip_of_goesOn goesOn, none, Place.isOpen, readings_cons,
        statementLine_inside goesOn]
      simp only [Place.next, ih, Place.isOpen]
  | @ending inside line rest first tame ih =>
      obtain ⟨left, place⟩ := strip_ending first line
      rw [readings_stripLines_cons, Place.isOpen, readings_cons] at ih
      rw [readings_stripLines_cons, left, place, ih, Place.isOpen, readings_cons,
        statementLine_ending first]
  | @outside line next rest isTame tame ih =>
      obtain ⟨place, isOpen, same⟩ := isTame.statementLine
      rw [readings_stripLines_cons, Place.isOpen, readings_cons, place, isOpen, same, ih]
  | type line rest =>
      have left : (reading (trim (strip .code line.text).1)).declaresType = true :=
        (declaresType_trim _).trans line.declaresType_strip
      have read : (reading (statementLine false line.text).1).declaresType = true :=
        line.declaresType_statementLine
      rw [readings_stripLines_cons, Place.isOpen, readings_cons, if_pos left, if_pos read]
  | @typeBehind front text rest isCode begins ends declares remains =>
      have left : (reading (trim (strip .code (front ++ '/' :: '*' :: text)).1)).declaresType =
          true := by
        rw [strip_code_append isCode]
        exact (declaresType_trim _).trans (declaresType_append begins remains)
      have read : (reading (statementLine false (front ++ '/' :: '*' :: text)).1).declaresType =
          true := by
        rw [statementLine_aside isCode ends]
        exact (declaresType_trim _).trans (declaresType_append begins declares)
      rw [readings_stripLines_cons, Place.isOpen, readings_cons, if_pos left, if_pos read]

/-- Taking the comments out of a source text first does not change its header, as long as its
lines up to the first type declaration are tame. -/
theorem ofSource_withoutComments (source : String)
    (tame : AreTame .code (source.toList.splitOn '\n')) :
    ofSource (withoutComments source) = ofSource source := by
  have same := readings_stripLines tame
  rw [← splitOn_strip] at same
  rw [ofSource_eq, ofSource_eq, withoutComments, String.toList_ofList, same]
  rfl

end Tame

/-! ### Comments of all kinds -/

namespace Sample

/-- A header with comments of all kinds that can be taken out. -/
def source : String :=
  "/* of a;\n * b */ package p; // q /* r */\n/** s */\nimport a.B; /* of c */\n/* d */ enum E // e"

theorem splitOn_source : source.toList.splitOn '\n' =
    ['/' :: '*' :: " of a;".toList,
      " * b ".toList ++ '*' :: '/' :: (" package p; ".toList ++ '/' :: '/' :: " q /* r */".toList),
      '/' :: '*' :: "* s */".toList,
      "import a.B; ".toList ++ '/' :: '*' :: " of c */".toList,
      '/' :: '*' :: " d */ enum E // e".toList] := by
  decide +kernel

theorem areTame_source : AreTame .code (source.toList.splitOn '\n') := by
  have opening : IsTame ('/' :: '*' :: " of a;".toList) .block :=
    @IsTame.block [] _ (by decide) (by decide)
  have package : IsTame (" package p; ".toList ++ '/' :: '/' :: " q /* r */".toList) .code :=
    IsTame.remark (by decide) ⟨by decide +kernel, by decide +kernel⟩ (by decide)
  have own : IsTame ('/' :: '*' :: "* s */".toList) .code :=
    @IsTame.aside [] _ (by decide) ⟨by decide +kernel, by decide +kernel⟩
      ⟨nofun, by decide, by decide⟩ ⟨by decide, by decide⟩
  have imports : IsTame ("import a.B; ".toList ++ '/' :: '*' :: " of c */".toList) .code := by
    have last : "import a.B; ".toList.getLast? = some ' ' := by decide +kernel
    have ends : ∀ character ∈ "import a.B; ".toList.getLast?,
        isBlank character = true ∨ character = ';' := by
      intro character isLast
      cases last.symm.trans isLast
      exact .inl rfl
    exact .aside (by decide) ⟨by decide +kernel, by decide +kernel⟩ ⟨ends, by decide, by decide⟩
      ⟨by decide, by decide⟩
  have type : AreTame .code ['/' :: '*' :: " d */ enum E // e".toList] :=
    @AreTame.typeBehind [] _ [] (by decide) nofun (by decide) (by decide) (by decide +kernel)
  rw [splitOn_source]
  exact .outside opening (.ending (by decide) (.outside package (.outside own
    (.outside imports type))))

end Sample

theorem ofSource_withoutComments_sample :
    ofSource (withoutComments Sample.source) = ofSource Sample.source ∧
      ofSource Sample.source = { package := some "p", imports := ["a.B"] } := by
  constructor
  · exact ofSource_withoutComments Sample.source Sample.areTame_source
  · decide +kernel

/-- A mark with which a string or a character begins: a double or a single quotation mark. -/
def isQuotation (character : Char) : Bool := character.toNat == 34 || character.toNat == 39

/-- A block comment that ends on its line is left in place, and becomes part of the package. -/
theorem not_ofSource_withoutComments :
    ¬∀ source : String, (source.toList.any isQuotation) = false →
      ofSource (withoutComments source) = ofSource source := by
  intro always
  have same := always "package a.b; /* main */\nclass A \x7b\x7d\n" (by decide)
  revert same
  decide +kernel

end ClassAtlas.SourceHeader
