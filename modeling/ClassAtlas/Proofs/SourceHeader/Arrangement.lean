import ClassAtlas.Proofs.SourceHeader.Comments

/-!
# Arrangements of headers

The declarations of a header can be put on lines in many ways.  The reader that looks for imports
takes each line apart at its semicolons, and the one that looks for the package takes all of a line
behind the first word for the name.  So the imports do not depend on the arrangement, and the
package does not as long as no import follows it on its line (`ofSource_rearranged`).
-/

namespace ClassAtlas.SourceHeader

open Text (trim trimStart trimEnd words isBlank isBlankText IsSolid AtBlank)

/-! ## Code -/

section Code

variable {text front : List Char} {sign : Char}

/-- A character with which no comment begins or goes on keeps the code on its sides apart. -/
theorem IsCode.append_cons (first : IsCode front) (other : sign ∉ '/' :: commentSigns)
    (second : IsCode text) : IsCode (front ++ sign :: text) := by
  rw [List.mem_cons, not_or] at other
  intro mark isMark occurs
  induction front with
  | nil =>
      rcases List.infix_cons_iff.1 occurs with start | inside
      · exact other.1 (List.cons_prefix_cons.1 start).1.symm
      · exact second mark isMark inside
  | cons character front ih =>
      rcases List.infix_cons_iff.1 occurs with start | inside
      · obtain ⟨rfl, next⟩ := List.cons_prefix_cons.1 start
        cases front with
        | nil =>
            obtain ⟨rfl, -⟩ := List.cons_prefix_cons.1 next
            exact other.2 isMark
        | cons second front =>
            obtain ⟨rfl, -⟩ := List.cons_prefix_cons.1 next
            exact first mark isMark ⟨[], front, rfl⟩
      · exact ih (first.of_isInfix (List.suffix_cons character front).isInfix) inside

theorem IsCode.append_of_not_mem (absent : '/' ∉ front) (isCode : IsCode text) :
    IsCode (front ++ text) :=
  fun sign isSign occurs => isCode sign isSign (Text.infix_of_infix_append absent occurs)

theorem declaresType_of_mem_splitOn (plain : declaresType text = false) {line : List Char}
    (isLine : line ∈ text.splitOn '\n') : declaresType (trim line) = false := by
  rw [Bool.eq_false_iff, ne_eq, declaresType_iff] at plain
  rw [declaresType_trim, Bool.eq_false_iff, ne_eq, declaresType_iff]
  rintro ⟨word, isTypeWord, member⟩
  refine plain ⟨word, isTypeWord, ?_⟩
  rw [Text.words_eq_flatMap_splitOn (by decide : isBlank '\n' = true)]
  exact List.mem_flatMap_of_mem isLine member

/-- Lines without comments and type words are read one by one. -/
theorem readings_append {lines : List (List Char)} (areCode : ∀ line ∈ lines, IsCode line)
    (plain : ∀ line ∈ lines, declaresType (trim line) = false) (rest : List (List Char)) :
    readings false (lines ++ rest) =
      lines.map (fun line => reading (trim line)) ++ readings false rest := by
  induction lines with
  | nil => rfl
  | cons line lines ih =>
      rw [List.forall_mem_cons] at areCode plain
      have goesOn : (reading (trim line)).declaresType = false := plain.1
      rw [List.cons_append, readings_cons, areCode.1.statementLine, ih areCode.2 plain.2, goesOn]
      rfl

theorem TypeLine.readings_followedBy (line : TypeLine) (body : Option (List Char)) :
    readings false ((line.followedBy body).splitOn '\n') = [] := by
  have stops : (reading (statementLine false line.text).1).declaresType = true :=
    line.declaresType_statementLine
  cases body with
  | none =>
      rw [followedBy, List.splitOn_eq_singleton line.single_text, readings_cons, if_pos stops]
  | some body =>
      rw [followedBy, List.splitOn_append_cons_self_of_not_mem line.single_text, readings_cons,
        if_pos stops]

end Code

/-! ## Two readers -/

/-- What is read from the pieces of a text. -/
def readOff (stops : Char → Bool) (read : List Char → Option (List Char)) (text : List Char) :
    List (List Char) :=
  (text.splitOnP stops).filterMap fun piece => read (trim piece)

section ReadOff

variable {stops : Char → Bool} {read : List Char → Option (List Char)}

theorem readOff_append_cons {sign : Char} (stop : stops sign = true) (front text : List Char) :
    readOff stops read (front ++ sign :: text) =
      readOff stops read front ++ readOff stops read text := by
  rw [readOff, List.splitOnP_append_cons front text stop, List.filterMap_append]
  rfl

theorem readOff_of_forall {text : List Char} (none : ∀ sign ∈ text, stops sign = false) :
    readOff stops read text = (read (trim text)).toList := by
  rw [readOff, List.splitOnP_eq_singleton none, List.filterMap_cons]
  cases read (trim text) <;> rfl

/-- Blanks before the first piece do not count. -/
theorem readOff_of_blank_append (nothing : read [] = none) {front : List Char}
    (blank : isBlankText front = true) (text : List Char) :
    readOff stops read (front ++ text) = readOff stops read text := by
  induction front with
  | nil => rfl
  | cons character front ih =>
      rw [isBlankText, List.all_cons, Bool.and_eq_true] at blank
      rw [← ih blank.2, List.cons_append, readOff, readOff, List.splitOnP_cons_eq_if_modifyHead]
      split
      · exact List.filterMap_cons_none nothing
      · obtain ⟨first, others, pieces⟩ :=
          List.exists_cons_of_ne_nil (List.splitOnP_ne_nil stops (front ++ text))
        have alone : isBlankText [character] = true := by simpa [isBlankText] using blank.1
        have same : trim (character :: first) = trim first := Text.trim_of_blank_append alone first
        rw [pieces, List.modifyHead_cons, List.filterMap_cons, List.filterMap_cons, same]

end ReadOff

/-- A character at which a text is split by the reader of imports. -/
def isStop (character : Char) : Bool := character == '\n' || character == ';'

/-- The targets that are imported in code, statement by statement. -/
def targetsIn (text : List Char) : List (List Char) := readOff isStop importIn? text

/-- The packages that are declared in code, line by line. -/
def packagesIn (text : List Char) : List (List Char) := readOff (· == '\n') packageIn? text

/-- Lines are split once more. -/
theorem flatMap_splitOn_splitOn (text : List Char) :
    (text.splitOn '\n').flatMap (·.splitOn ';') = text.splitOnP isStop := by
  induction text with
  | nil => rfl
  | cons character text ih =>
      obtain ⟨first, others, lines⟩ := List.exists_cons_of_ne_nil (List.splitOn_ne_nil '\n' text)
      rw [List.splitOn_cons_eq_if_modifyHead, List.splitOnP_cons_eq_if_modifyHead, ← ih, lines]
      by_cases isBreak : (character == '\n') = true
      · have stops : isStop character = true := by simp [isStop, isBreak]
        rw [if_pos isBreak, if_pos stops]
        rfl
      · rw [if_neg isBreak, List.modifyHead_cons, List.flatMap_cons, List.flatMap_cons,
          List.splitOn_cons_eq_if_modifyHead]
        have same : isStop character = (character == ';') := by simp [isStop, isBreak]
        rw [same]
        split
        · rfl
        · obtain ⟨piece, pieces, split⟩ :=
            List.exists_cons_of_ne_nil (List.splitOn_ne_nil ';' first)
          rw [split]
          rfl

theorem ofSource_of_isCode {text : List Char} (isCode : IsCode text)
    (plain : declaresType text = false) (line : TypeLine) (body : Option (List Char)) :
    ofSource (String.ofList (text ++ '\n' :: line.followedBy body)) =
      { package := (packagesIn text).head?.map String.ofList
        imports := (targetsIn text).map String.ofList } := by
  have lines : readings false ((text ++ '\n' :: line.followedBy body).splitOn '\n') =
      (text.splitOn '\n').map fun line => reading (trim line) := by
    rw [List.splitOn_append_cons_self, readings_append
      (fun _ isLine => isCode.of_isInfix (Text.isInfix_of_mem_splitOn isLine))
      (fun _ => declaresType_of_mem_splitOn plain), line.readings_followedBy, List.append_nil]
  have imports : (text.splitOn '\n').flatMap (fun line => (reading (trim line)).imports) =
      targetsIn text := by
    simp only [reading, imports_trim]
    rw [← List.filterMap_flatMap, flatMap_splitOn_splitOn, targetsIn, readOff]
    exact List.filterMap_congr fun piece _ => importIn?_congr (Text.trim_trim piece).symm
  rw [ofSource_eq, String.toList_ofList, lines, List.findSome?_map, List.flatMap_map, imports,
    packagesIn, readOff, List.head?_filterMap]
  rfl

/-! ### Packages -/

/-- What a text names, unless it is blank. -/
def name? (text : List Char) : Option (List Char) :=
  if (trim text).isEmpty then none else some (trim text)

/-- The text up to the first line feed. -/
def firstLine (text : List Char) : List Char := text.takeWhile (· != '\n')

section FirstLine

variable {front : List Char}

theorem firstLine_append_of_not_mem (single : '\n' ∉ front) (text : List Char) :
    firstLine (front ++ text) = front ++ firstLine text := by
  apply List.takeWhile_append_of_pos
  intro character member
  rw [bne_iff_ne]
  rintro rfl
  exact single member

theorem firstLine_of_not_mem (single : '\n' ∉ front) : firstLine front = front := by
  have kept := firstLine_append_of_not_mem single []
  rwa [List.append_nil, show firstLine [] = [] from rfl, List.append_nil] at kept

theorem firstLine_append_of_mem (broken : '\n' ∈ front) (text : List Char) :
    firstLine (front ++ text) = firstLine front := by
  obtain ⟨first, others, rfl, single⟩ := List.eq_append_cons_of_mem broken
  rw [List.append_assoc, firstLine_append_of_not_mem single, firstLine_append_of_not_mem single]
  rfl

theorem firstLine_isPrefix (text : List Char) : firstLine text <+: text :=
  List.takeWhile_prefix _

end FirstLine

/-- A line that declares a package holds the word for it. -/
theorem mem_words_of_packageIn? {line name : List Char} (found : packageIn? line = some name) :
    packageWord ∈ words isBlank line := by
  obtain ⟨rest, isRest, -⟩ := Option.bind_eq_some_iff.1 found
  rw [afterWord?, Option.filter_eq_some_iff] at isRest
  obtain ⟨taken, blank⟩ := isRest
  have atBlank : AtBlank rest := by
    intro character first
    rwa [Option.mem_def.1 first] at blank
  have whole : line = packageWord ++ rest := Text.isPrefixOf?_eq_some taken
  rw [whole, Text.words_append_atBlank isPlain_packageWord.nonempty isPlain_packageWord.solid
    atBlank]
  exact List.mem_cons_self

theorem packagesIn_eq_nil {text : List Char} (absent : packageWord ∉ words isBlank text) :
    packagesIn text = [] := by
  rw [packagesIn, readOff, List.filterMap_eq_nil_iff]
  intro line isLine
  rw [Option.eq_none_iff_forall_ne_some]
  intro name found
  have member := mem_words_of_packageIn? found
  rw [Text.words_trim] at member
  apply absent
  rw [Text.words_eq_flatMap_splitOn (by decide : isBlank '\n' = true)]
  exact List.mem_flatMap_of_mem isLine member

/-- What follows the word on a line is the package. -/
theorem packageIn?_trim {rest : List Char} (atBlank : AtBlank rest) :
    packageIn? (trim (packageWord ++ rest)) = name? (Text.dropEnd ';' (trim rest)) := by
  have atEnd := atBlank.trimEnd
  rw [isPlain_packageWord.trim_append, ← Text.trim_trimEnd rest]
  generalize trimEnd rest = rest at atEnd ⊢
  have taken : "package".toList.isPrefixOf? (packageWord ++ rest) = some rest :=
    Text.isPrefixOf?_eq_some_iff.2 rfl
  rw [packageIn?, afterWord?, taken]
  cases rest with
  | nil => rfl
  | cons blank rest =>
      have space : (blank :: rest).head?.any isBlank = true := atEnd blank rfl
      rw [Option.filter_some, if_pos space]
      rfl

/-- Only the first line of a package declaration is read. -/
theorem packagesIn_packageWord {rest : List Char} (atBlank : AtBlank rest)
    (absent : packageWord ∉ words isBlank rest) :
    packagesIn (packageWord ++ rest) =
      (name? (Text.dropEnd ';' (trim (firstLine rest)))).toList := by
  have isFirst : AtBlank (firstLine rest) := atBlank.of_isPrefix (firstLine_isPrefix rest)
  have single : '\n' ∉ packageWord ++ firstLine rest := by
    rw [List.mem_append, not_or]
    refine ⟨by decide, fun member => ?_⟩
    simpa using List.mem_takeWhile_imp member
  have first : packagesIn (packageWord ++ firstLine rest) =
      (name? (Text.dropEnd ';' (trim (firstLine rest)))).toList := by
    rw [packagesIn, readOff_of_forall, packageIn?_trim isFirst]
    intro character member
    rw [beq_eq_false_iff_ne]
    rintro rfl
    exact single member
  by_cases broken : '\n' ∈ rest
  · obtain ⟨front, others, rfl, apart⟩ := List.eq_append_cons_of_mem broken
    have isFront : firstLine (front ++ '\n' :: others) = front := by
      rw [firstLine_append_of_not_mem apart]
      exact List.append_nil front
    rw [Text.words_append_blank (by decide), List.mem_append, not_or] at absent
    rw [isFront] at first ⊢
    rw [← List.append_assoc, packagesIn, readOff_append_cons (by decide), ← packagesIn, first,
      ← packagesIn, packagesIn_eq_nil absent.2, List.append_nil]
  · rwa [firstLine_of_not_mem broken] at first ⊢

section Semicolon

variable {front rest : List Char}

theorem name?_dropEnd_of_not_mem (absent : ';' ∉ front) :
    name? (Text.dropEnd ';' (trim front)) = name? front := by
  have inside : ';' ∉ trim front := fun member => absent ((Text.trim_isInfix front).subset member)
  rw [Text.dropEnd_of_not_mem inside, name?, name?, Text.trim_trim]

/-- The semicolon is left out when nothing follows it. -/
theorem name?_dropEnd_of_blank (absent : ';' ∉ front) (blank : isBlankText rest = true) :
    name? (Text.dropEnd ';' (trim (front ++ ';' :: rest))) = name? front := by
  have inside : ';' ∉ trimStart front := fun member =>
    absent ((List.dropWhile_suffix isBlank).subset member)
  have nothing : trimEnd rest = [] := by
    rw [← List.nil_append rest, Text.trimEnd_append_of_blank blank]
    rfl
  rw [Text.trim_append_solid (by decide), nothing, Text.dropEnd_append inside, name?, name?,
    Text.trim_trimStart]

/-- The semicolon is kept when another character follows it. -/
theorem exists_name?_dropEnd (front : List Char) {character : Char}
    (solid : isBlank character = false) (other : character ≠ ';') (member : character ∈ rest) :
    ∃ name, name? (Text.dropEnd ';' (trim (front ++ ';' :: rest))) = some name ∧ ';' ∈ name := by
  obtain ⟨before, after, rfl⟩ := List.append_of_mem member
  have shape : front ++ ';' :: (before ++ character :: after) =
      (front ++ ';' :: before) ++ character :: after := by simp
  have isName : trim (Text.dropEnd ';' (trim (front ++ ';' :: (before ++ character :: after)))) =
      trimStart front ++ ';' :: before ++
        character :: trimEnd (Text.dropEnd ';' (trimEnd after)) := by
    rw [shape, Text.trim_append_solid solid, Text.dropEnd_append_cons other,
      Text.trim_append_solid solid, Text.trimStart_trimStart,
      Text.trimStart_append_solid (by decide)]
  refine ⟨_, if_neg ?_, ?_⟩
  · rw [isName]
    simp
  · rw [isName]
    simp

end Semicolon

/-! ## Declarations -/

/-- A declaration of a header up to its semicolon, with no comment in it and no other keyword than
its first word by itself. -/
structure Declaration (word : List Char) where
  space : List Char
  isSpace : isBlankText space = true
  nonempty : space ≠ []
  subject : List Char
  unended : ';' ∉ subject
  isCode : IsCode subject
  plain : ∀ keyword ∈ packageWord :: typeWords, keyword ∉ words isBlank (subject ++ [';'])

namespace Declaration

variable {word : List Char} (declaration : Declaration word)

/-- What follows the first word. -/
def after : List Char := declaration.space ++ declaration.subject

def text : List Char := word ++ declaration.after

/-- What the first line of the declaration names. -/
def name? : Option (List Char) := SourceHeader.name? (firstLine declaration.after)

theorem unended_after : ';' ∉ declaration.after := by
  rw [after, List.mem_append, not_or]
  exact ⟨Text.not_mem_of_blank declaration.isSpace (by decide), declaration.unended⟩

theorem unended_name? {name : List Char} (named : declaration.name? = some name) :
    ';' ∉ name := by
  rw [Declaration.name?, SourceHeader.name?, Option.ite_none_left_eq_some] at named
  obtain ⟨-, same⟩ := named
  intro member
  rw [← Option.some.inj same] at member
  exact declaration.unended_after ((firstLine_isPrefix declaration.after).subset
    ((Text.trim_isInfix _).subset member))

theorem atBlank_append (text : List Char) : AtBlank (declaration.after ++ text) := by
  rw [after, List.append_assoc]
  exact Text.atBlank_append_of_blank declaration.isSpace declaration.nonempty _

theorem words_append (text : List Char) :
    words isBlank (declaration.after ++ text) = words isBlank (declaration.subject ++ text) := by
  rw [after, List.append_assoc, Text.words_of_blank_append declaration.isSpace]

variable (isPlain : IsPlain word)

include isPlain

theorem isCode_text : IsCode declaration.text :=
  .append_of_not_mem isPlain.slash
    (.append_of_not_mem (Text.not_mem_of_blank declaration.isSpace (by decide))
      declaration.isCode)

theorem not_mem_words {keyword : List Char} (other : keyword ≠ word)
    (isKeyword : keyword ∈ packageWord :: typeWords) :
    keyword ∉ words isBlank (declaration.text ++ [';']) := by
  rw [text, List.append_assoc, Text.words_append_atBlank isPlain.nonempty isPlain.solid
    (declaration.atBlank_append _), words_append, List.mem_cons, not_or]
  exact ⟨other, declaration.plain keyword isKeyword⟩

end Declaration

/-- Blanks and line breaks, or nothing. -/
structure Separator where
  text : List Char
  isBlank : isBlankText text = true

/-- Texts that are each ended by a semicolon, with a separator before each and one after the
last. -/
def arrange (gaps : Nat → Separator) : List (List Char) → List Char
  | [] => (gaps 0).text
  | text :: texts =>
      (gaps 0).text ++ (text ++ ';' :: arrange (fun place => gaps (place + 1)) texts)

section Arrange

variable (gaps : Nat → Separator) {texts : List (List Char)}

theorem isCode_arrange (areCode : ∀ text ∈ texts, IsCode text) : IsCode (arrange gaps texts) := by
  have absent (blanks : Separator) : '/' ∉ blanks.text :=
    Text.not_mem_of_blank blanks.isBlank (by decide)
  induction texts generalizing gaps with
  | nil =>
      rw [arrange, ← List.append_nil (gaps 0).text]
      exact .append_of_not_mem (absent _) (by decide)
  | cons text texts ih =>
      rw [List.forall_mem_cons] at areCode
      exact .append_of_not_mem (absent _) (areCode.1.append_cons (by decide) (ih _ areCode.2))

/-- Every word without a semicolon is a word of one of the texts. -/
theorem exists_of_mem_words_arrange {word : List Char} (absent : ';' ∉ word)
    (member : word ∈ words isBlank (arrange gaps texts)) :
    ∃ text ∈ texts, word ∈ words isBlank (text ++ [';']) := by
  induction texts generalizing gaps with
  | nil =>
      rw [arrange, Text.words_of_blank (gaps 0).isBlank] at member
      cases member
  | cons text texts ih =>
      rw [arrange, Text.words_of_blank_append (gaps 0).isBlank,
        Text.mem_words_append_cons_iff (by decide) absent] at member
      rcases member with own | later
      · exact ⟨text, List.mem_cons_self, own⟩
      · obtain ⟨other, isText, inside⟩ :=
          ih _ (Text.mem_words_of_mem_append (by decide : IsSolid ([] ++ [';'])) absent later)
        exact ⟨other, List.mem_cons_of_mem text isText, inside⟩

/-- No text stands on the first line. -/
theorem isBlankText_firstLine_arrange (apart : texts = [] ∨ '\n' ∈ (gaps 0).text) :
    isBlankText (firstLine (arrange gaps texts)) = true := by
  have start : firstLine (arrange gaps texts) <+: (gaps 0).text := by
    cases texts with
    | nil => exact firstLine_isPrefix _
    | cons text texts =>
        rw [arrange, firstLine_append_of_mem (apart.resolve_left (List.cons_ne_nil _ _))]
        exact firstLine_isPrefix _
  rw [isBlankText, List.all_eq_true]
  exact fun character member => List.all_eq_true.1 (gaps 0).isBlank character (start.subset member)

/-- The targets of a header are those of its declarations, in whichever way they are arranged. -/
theorem targetsIn_arrange : targetsIn (arrange gaps texts) = texts.flatMap targetsIn := by
  have nothing : importIn? [] = none := by decide
  induction texts generalizing gaps with
  | nil =>
      rw [arrange, ← List.append_nil (gaps 0).text, targetsIn,
        readOff_of_blank_append nothing (gaps 0).isBlank]
      rfl
  | cons text texts ih =>
      rw [arrange, targetsIn, readOff_of_blank_append nothing (gaps 0).isBlank,
        readOff_append_cons (by decide), ← targetsIn, ← targetsIn, ih, List.flatMap_cons]

end Arrange

/-! ## Headers -/

/-- What a header declares, in order. -/
structure Declarations where
  package : Option (Declaration packageWord)
  imports : List (Declaration importWord)

namespace Declarations

variable (declared : Declarations) (gaps : Nat → Separator) (line : TypeLine)
  (body : Option (List Char))

def texts : List (List Char) :=
  declared.package.toList.map (·.text) ++ declared.imports.map (·.text)

/-- A source file that begins with the declarations. -/
def source : String :=
  String.ofList (arrange gaps declared.texts ++ '\n' :: line.followedBy body)

/-- An import follows the declaration of the package on the same line. -/
def SharesLine : Prop :=
  (∃ package ∈ declared.package, '\n' ∉ package.text) ∧ declared.imports ≠ [] ∧
    '\n' ∉ (gaps 1).text

theorem forall_mem_texts (property : List Char → Prop)
    (ofPackage : ∀ package : Declaration packageWord, property package.text)
    (ofImport : ∀ target : Declaration importWord, property target.text) :
    ∀ text ∈ declared.texts, property text := by
  intro text member
  rcases List.mem_append.1 member with inPackage | inImports
  · obtain ⟨package, -, rfl⟩ := List.mem_map.1 inPackage
    exact ofPackage package
  · obtain ⟨target, -, rfl⟩ := List.mem_map.1 inImports
    exact ofImport target

/-- The header is read off the declarations. -/
theorem ofSource_source :
    ofSource (declared.source gaps line body) =
      { package := (packagesIn (arrange gaps declared.texts)).head?.map String.ofList
        imports := (declared.texts.flatMap targetsIn).map String.ofList } := by
  have isCode : IsCode (arrange gaps declared.texts) := by
    apply isCode_arrange
    exact declared.forall_mem_texts IsCode (·.isCode_text isPlain_packageWord)
      (·.isCode_text isPlain_importWord)
  have plain : declaresType (arrange gaps declared.texts) = false := by
    rw [Bool.eq_false_iff, ne_eq, declaresType_iff]
    rintro ⟨word, isTypeWord, member⟩
    have isKeyword : word ∈ packageWord :: typeWords := List.mem_cons_of_mem _ isTypeWord
    have others : ∀ word ∈ typeWords, word ≠ packageWord ∧ word ≠ importWord := by decide
    obtain ⟨text, isText, inside⟩ := exists_of_mem_words_arrange gaps
      (isPlain_of_mem_typeWords isTypeWord).semicolon member
    exact declared.forall_mem_texts (fun text => word ∉ words isBlank (text ++ [';']))
      (·.not_mem_words isPlain_packageWord (others word isTypeWord).1 isKeyword)
      (·.not_mem_words isPlain_importWord (others word isTypeWord).2 isKeyword) text isText inside
  rw [source, ofSource_of_isCode isCode plain, targetsIn_arrange]

/-- No import is taken for a package. -/
theorem package_not_mem_words (imports : List (Declaration importWord)) :
    packageWord ∉ words isBlank (arrange gaps (imports.map (·.text))) := by
  intro member
  obtain ⟨text, isText, inside⟩ :=
    exists_of_mem_words_arrange gaps isPlain_packageWord.semicolon member
  obtain ⟨target, -, rfl⟩ := List.mem_map.1 isText
  exact target.not_mem_words isPlain_importWord (by decide) List.mem_cons_self inside

/-- What the reader of packages makes of the first line. -/
theorem packagesIn_texts {package : Declaration packageWord}
    (isPackage : declared.package = some package) :
    packagesIn (arrange gaps declared.texts) =
      (name? (Text.dropEnd ';' (trim (firstLine (package.after ++
        ';' :: arrange (fun place => gaps (place + 1))
          (declared.imports.map (·.text))))))).toList := by
  have shape : declared.texts = package.text :: declared.imports.map (·.text) := by
    rw [texts, isPackage]
    rfl
  have semicolon := isPlain_packageWord.semicolon
  have absent := package.plain packageWord List.mem_cons_self
  have after := package_not_mem_words (fun place => gaps (place + 1)) declared.imports
  rw [shape, arrange, packagesIn, readOff_of_blank_append (by decide) (gaps 0).isBlank,
    ← packagesIn, Declaration.text, List.append_assoc,
    packagesIn_packageWord (package.atBlank_append _)]
  rw [package.words_append, Text.mem_words_append_cons_iff (by decide) semicolon, not_or]
  refine ⟨absent, fun member => after ?_⟩
  exact Text.mem_words_of_mem_append (by decide : IsSolid ([] ++ [';'])) semicolon member

/-- The package is what its declaration names when nothing follows it on its line. -/
theorem head?_packagesIn (apart : ¬declared.SharesLine gaps) :
    (packagesIn (arrange gaps declared.texts)).head? = declared.package.bind (·.name?) := by
  cases isPackage : declared.package with
  | none =>
      have shape : declared.texts = declared.imports.map (·.text) := by
        rw [texts, isPackage]
        rfl
      rw [shape, packagesIn_eq_nil (package_not_mem_words gaps declared.imports)]
      rfl
  | some package =>
      have named : packagesIn (arrange gaps declared.texts) = package.name?.toList := by
        rw [declared.packagesIn_texts gaps isPackage, Declaration.name?]
        by_cases broken : '\n' ∈ package.after
        · have absent : ';' ∉ firstLine package.after := fun member =>
            package.unended_after ((firstLine_isPrefix package.after).subset member)
          rw [firstLine_append_of_mem broken, name?_dropEnd_of_not_mem absent]
        · have ends : declared.imports.map (·.text) = [] ∨ '\n' ∈ (gaps 1).text := by
            by_contra both
            rw [not_or, List.map_eq_nil_iff] at both
            refine apart ⟨⟨package, isPackage, ?_⟩, both⟩
            rw [Declaration.text, List.mem_append, not_or]
            exact ⟨by decide, broken⟩
          rw [firstLine_append_of_not_mem broken, firstLine_of_not_mem broken]
          exact congrArg Option.toList (name?_dropEnd_of_blank package.unended_after
            (isBlankText_firstLine_arrange _ ends))
      rw [named]
      exact Option.head?_toList

/-- The package goes on with the imports on its line. -/
theorem exists_package_of_sharesLine (shares : declared.SharesLine gaps) :
    ∃ name, (packagesIn (arrange gaps declared.texts)).head? = some name ∧ ';' ∈ name := by
  obtain ⟨⟨package, isPackage, single⟩, nonempty, together⟩ := shares
  obtain ⟨target, others, imports⟩ := List.exists_cons_of_ne_nil nonempty
  rw [Declaration.text, List.mem_append, not_or] at single
  have letter : 'i' ∈ firstLine
      (arrange (fun place => gaps (place + 1)) (declared.imports.map (·.text))) := by
    rw [imports, List.map_cons, arrange, firstLine_append_of_not_mem together, Declaration.text,
      List.append_assoc, firstLine_append_of_not_mem (by decide : '\n' ∉ importWord)]
    exact List.mem_append_right _ (List.mem_append_left _ (by decide))
  obtain ⟨name, isName, semicolon⟩ := exists_name?_dropEnd package.after
    (by decide : isBlank 'i' = false) (by decide) letter
  refine ⟨name, ?_, semicolon⟩
  rw [declared.packagesIn_texts gaps isPackage, firstLine_append_of_not_mem single.2,
    show firstLine (';' :: _) = ';' :: firstLine _ from rfl, isName]
  rfl

/-- No import shows in the package when it stands on a line without them. -/
theorem package_of_apart (apart : ¬declared.SharesLine gaps) :
    (ofSource (declared.source gaps line body)).package =
      (declared.package.bind (·.name?)).map String.ofList := by
  rw [ofSource_source, declared.head?_packagesIn gaps apart]

theorem semicolon_mem_package_iff :
    (∃ package ∈ (ofSource (declared.source gaps line body)).package, ';' ∈ package.toList) ↔
      declared.SharesLine gaps := by
  constructor
  · rintro ⟨package, isPackage, semicolon⟩
    by_contra apart
    rw [package_of_apart declared gaps line body apart] at isPackage
    obtain ⟨name, isName, rfl⟩ := Option.map_eq_some_iff.1 isPackage
    obtain ⟨declaration, -, named⟩ := Option.bind_eq_some_iff.1 isName
    rw [String.toList_ofList] at semicolon
    exact declaration.unended_name? named semicolon
  · intro shares
    obtain ⟨name, isName, semicolon⟩ := declared.exists_package_of_sharesLine gaps shares
    refine ⟨String.ofList name, ?_, by rwa [String.toList_ofList]⟩
    rw [ofSource_source, isName]
    rfl

end Declarations

/-- How the declarations of a header are put on lines does not matter to the imports.  It does not
matter to the package unless an import follows it on its line: then a semicolon is part of the
package, and else the package is what the first line of its declaration names, blanks in it
included. -/
theorem ofSource_rearranged (declared : Declarations) (left right : Nat → Separator)
    (line : TypeLine) (body : Option (List Char)) :
    (ofSource (declared.source left line body)).imports =
        (ofSource (declared.source right line body)).imports ∧
      (¬declared.SharesLine left → ¬declared.SharesLine right →
        (ofSource (declared.source left line body)).package =
          (ofSource (declared.source right line body)).package) ∧
      (¬declared.SharesLine left → (ofSource (declared.source left line body)).package =
        (declared.package.bind (·.name?)).map String.ofList) ∧
      ((∃ package ∈ (ofSource (declared.source left line body)).package, ';' ∈ package.toList) ↔
        declared.SharesLine left) := by
  refine ⟨?_, ?_, declared.package_of_apart left line body,
    declared.semicolon_mem_package_iff left line body⟩
  · rw [declared.ofSource_source, declared.ofSource_source]
  · intro onLeft onRight
    rw [declared.package_of_apart left line body onLeft,
      declared.package_of_apart right line body onRight]

namespace Sample

/-- `package a.b; import c.D;` -/
def declared : Declarations where
  package := some ⟨Space.one.text, Space.one.isBlank, Space.one.nonempty, "a.b".toList, by decide,
    by decide, by decide⟩
  imports := [⟨Space.one.text, Space.one.isBlank, Space.one.nonempty, "c.D".toList, by decide,
    by decide, by decide⟩]

def sameLine : Nat → Separator := fun _ => ⟨Space.one.text, Space.one.isBlank⟩

def ownLines : Nat → Separator := fun _ => ⟨['\r', '\n'], rfl⟩

/-- `class A` -/
def type : TypeLine where
  before := []
  word := "class".toList
  after := " A".toList
  isClear := ⟨nofun, by decide, by decide⟩
  isTypeWord := by decide
  endsWord := .inl (Text.atBlank_cons (by decide) _)
  single := by decide

end Sample

/-- Declarations on lines of their own. -/
theorem ofSource_rearranged_ownLines :
    ¬Sample.declared.SharesLine Sample.ownLines ∧
      (ofSource (Sample.declared.source Sample.ownLines Sample.type none)).package =
        (Sample.declared.package.bind (·.name?)).map String.ofList ∧
      (Sample.declared.package.bind (·.name?)).map String.ofList = some "a.b" := by
  have apart : ¬Sample.declared.SharesLine Sample.ownLines := fun shares =>
    absurd shares.2.2 (by decide)
  exact ⟨apart, (ofSource_rearranged Sample.declared Sample.ownLines Sample.sameLine Sample.type
    none).2.2.1 apart, by decide⟩

/-- An import on the line of the package is taken for a part of its name. -/
theorem not_ofSource_rearranged :
    ¬∀ (declared : Declarations) (left right : Nat → Separator) (line : TypeLine)
      (body : Option (List Char)),
      ofSource (declared.source left line body) = ofSource (declared.source right line body) := by
  intro same
  have packages := congrArg SourceHeader.package
    (same Sample.declared Sample.sameLine Sample.ownLines Sample.type none)
  revert packages
  decide +kernel

end ClassAtlas.SourceHeader
