import ClassAtlas.Proofs.Transcript.Colour

/-!
# What a line is recognised by

Each kind of line has its own shape.  A line with that shape is recognised, with the parts that
stand in it, and is none of the kinds that are tried before.  The parts are fields, which are
made of the characters of coordinates (`IsField`), and names, of which only the ends matter
(`IsName`): the name of what is built ends where nothing but a version and a count follow, since
a count is no field (`nameAndVersion?_name`).
-/

namespace ClassAtlas.Transcript

open Text (isBlank trimStart words AtBlank IsSolid)

/-! ## Fields and names -/

/-- A text of the characters of coordinates. -/
structure IsField (text : List Char) : Prop where
  nonempty : text ≠ []
  plain : ∀ character ∈ text, isCoordinate character = true

instance (text : List Char) : Decidable (IsField text) :=
  decidable_of_iff (text ≠ [] ∧ text.all isCoordinate = true)
    ⟨fun field => ⟨field.1, List.all_eq_true.1 field.2⟩,
      fun field => ⟨field.nonempty, List.all_eq_true.2 field.plain⟩⟩

/-- The code of a character of coordinates lies between those of `+` and `z`, and is that of no
sign with a meaning of its own. -/
theorem code_of_isCoordinate {character : Char} (plain : isCoordinate character = true) :
    43 ≤ character.toNat ∧ character.toNat ≤ 122 ∧ character.toNat ≠ 58 ∧
      character.toNat ≠ 60 ∧ character.toNat ≠ 62 ∧ character.toNat ≠ 91 := by
  have codes : ('0').val.toNat = 48 ∧ ('9').val.toNat = 57 ∧ ('a').val.toNat = 97 ∧
      ('z').val.toNat = 122 ∧ ('A').val.toNat = 65 ∧ ('Z').val.toNat = 90 := by decide
  simp only [isCoordinate, Text.isAsciiLetter, Text.isAsciiDigit, Bool.or_eq_true,
    Bool.and_eq_true, decide_eq_true_eq, beq_iff_eq, Char.le_def, UInt32.le_iff_toNat_le] at plain
  rw [Char.toNat]
  rcases plain with ((((isLetter | isDigit) | rfl) | rfl) | rfl) | rfl
  · omega
  · omega
  all_goals decide

theorem not_isBlank_of_code {character : Char}
    (code : 43 ≤ character.toNat ∧ character.toNat ≤ 122) : isBlank character = false := by
  rw [Bool.eq_false_iff]
  intro blank
  simp only [isBlank, Bool.or_eq_true, Bool.and_eq_true, decide_eq_true_eq, beq_iff_eq] at blank
  omega

theorem not_isBlank_of_isCoordinate {character : Char} (plain : isCoordinate character = true) :
    isBlank character = false := by
  have code := code_of_isCoordinate plain
  exact not_isBlank_of_code ⟨code.1, code.2.1⟩

theorem ne_of_isCoordinate {character sign : Char} (plain : isCoordinate character = true)
    (isSign : sign ∈ [':', '<', '>', '[']) : character ≠ sign := by
  rintro rfl
  have code := code_of_isCoordinate plain
  simp only [List.mem_cons, List.not_mem_nil, or_false] at isSign
  rcases isSign with rfl | rfl | rfl | rfl <;> revert code <;> decide

theorem isMarkField_of_isCoordinate {character : Char} (plain : isCoordinate character = true) :
    isMarkField character = true := by
  have apart : ∀ sign ∈ [':', '<', '>', '['], character ≠ sign :=
    fun sign isSign => ne_of_isCoordinate plain isSign
  simp [isMarkField, not_isBlank_of_isCoordinate plain, apart]

namespace IsField

variable {text : List Char}

theorem isSolid (field : IsField text) : IsSolid text := by
  intro character member
  exact not_isBlank_of_isCoordinate (field.plain character member)

theorem exists_cons (field : IsField text) :
    ∃ first rest, text = first :: rest ∧ isCoordinate first = true := by
  obtain ⟨first, rest, rfl⟩ := List.exists_cons_of_ne_nil field.nonempty
  exact ⟨first, rest, rfl, field.plain first List.mem_cons_self⟩

theorem trimStart_append (field : IsField text) (rest : List Char) :
    trimStart (text ++ rest) = text ++ rest := by
  obtain ⟨first, front, rfl, plain⟩ := field.exists_cons
  exact Text.trimStart_cons_solid (not_isBlank_of_isCoordinate plain) _

end IsField

/-- The name of what is built.  Blanks may stand in it, but not at its ends, and no colon stands
at its end. -/
structure IsName (text : List Char) : Prop where
  begins : ∃ first rest, text = first :: rest ∧ isBlank first = false
  ends : ∃ front last, text = front ++ [last] ∧ isBlank last = false ∧ last ≠ ':'

/-! ## Messages -/

/-- A run of characters that pass a test ends where the first one fails it. -/
theorem takeRun_append {test : Char → Bool} {run rest : List Char} (nonempty : run ≠ [])
    (passed : ∀ character ∈ run, test character = true)
    (stopped : ∀ character ∈ rest.head?, test character = false) :
    takeRun test (run ++ rest) = some (run, rest) := by
  have taken : (run ++ rest).takeWhile test = run := by
    rw [List.takeWhile_append_of_pos passed]
    cases rest with
    | nil => simp
    | cons character rest => simp [stopped character rfl]
  have left : (run ++ rest).dropWhile test = rest := by
    rw [List.dropWhile_append_of_pos passed]
    cases rest with
    | nil => rfl
    | cons character rest => simp [stopped character rfl]
  obtain ⟨first, run, rfl⟩ := List.exists_cons_of_ne_nil nonempty
  rw [takeRun, taken, left]

theorem takeRun_eq_some {test : Char → Bool} {text run rest : List Char}
    (taken : takeRun test text = some (run, rest)) :
    run ≠ [] ∧ text = run ++ rest ∧ ∀ character ∈ run, test character = true := by
  rw [takeRun] at taken
  split at taken
  · cases taken
  · rename_i word nonempty
    obtain ⟨rfl, rfl⟩ := Prod.mk.inj (Option.some.inj taken)
    refine ⟨nonempty, List.takeWhile_append_dropWhile.symm, ?_⟩
    intro character member
    exact List.mem_takeWhile_imp member

theorem rest_of_takeRun {test : Char → Bool} {text run rest : List Char}
    (taken : takeRun test text = some (run, rest)) : rest = text.dropWhile test := by
  rw [takeRun] at taken
  split at taken
  · cases taken
  · cases taken
    rfl

/-- What is written before every message. -/
def level : List Char := "[INFO]".toList

theorem message?_level (rest : List Char) :
    message? (level ++ ' ' :: rest) = some (trimStart rest) := by
  have begun := Text.isPrefixOf?_eq_some_iff.2 (rfl : level ++ ' ' :: rest = level ++ ' ' :: rest)
  rw [level] at begun ⊢
  simp only [message?, begun]
  exact if_pos rfl

/-- A line without the level is no message. -/
theorem ofText_of_not_prefix {line : List Char} (other : ¬level <+: line) :
    Line.ofText line = .other := by
  have missing := Text.isPrefixOf?_eq_none_iff.2 other
  rw [level] at missing
  rw [Line.ofText, message?, missing]

/-- The first word of a message. -/
def firstWord (message : List Char) : List Char :=
  message.takeWhile fun character => !isBlank character

theorem firstWord_append {word rest : List Char} (solid : IsSolid word) (atBlank : AtBlank rest) :
    firstWord (word ++ rest) = word :=
  Text.takeWhile_append_atBlank solid atBlank

/-- Blanks cannot follow a word at the start of a message whose first word is another one. -/
theorem any_head?_of_firstWord_ne {word rest : List Char} (solid : IsSolid word)
    (other : firstWord (word ++ rest) ≠ word) : rest.head?.any isBlank = false := by
  rw [Bool.eq_false_iff]
  intro blank
  apply other
  apply firstWord_append solid
  intro character member
  rw [Option.mem_def.1 member] at blank
  exact blank

/-! ## Module marks -/

theorem skipHyphens_replicate (count : Nat) {rest : List Char} (other : rest.head? ≠ some '-') :
    skipHyphens (List.replicate count '-' ++ rest) = rest := by
  rw [skipHyphens, List.dropWhile_append_of_pos (by simp)]
  cases rest with
  | nil => rfl
  | cons character rest =>
      rw [List.dropWhile_cons_of_neg]
      simpa using other

/-- A message with nothing that opens a module mark after its hyphens marks no module. -/
theorem moduleMark?_eq_none {message : List Char} (other : (skipHyphens message).head? ≠ some '<') :
    moduleMark? message = none := by
  have missing : ['<'].isPrefixOf? (skipHyphens message) = none := by
    apply Text.isPrefixOf?_eq_none_iff.2
    rintro ⟨rest, begins⟩
    rw [← begins] at other
    exact other rfl
  rw [moduleMark?, missing]
  rfl

theorem moduleMark?_mark (before after : Nat) {group artifact : List Char}
    (isGroup : IsField group) (isArtifact : IsField artifact) :
    moduleMark? (List.replicate before '-' ++ '<' :: ' ' ::
      (group ++ ':' :: (artifact ++ ' ' :: '>' :: List.replicate after '-'))) =
        some (String.ofList group, String.ofList artifact) := by
  have groupTaken : takeRun isMarkField (group ++ ':' ::
      (artifact ++ ' ' :: '>' :: List.replicate after '-')) =
        some (group, ':' :: (artifact ++ ' ' :: '>' :: List.replicate after '-')) := by
    apply takeRun_append isGroup.nonempty
    · exact fun character member => isMarkField_of_isCoordinate (isGroup.plain character member)
    · rintro character ⟨⟩
      decide
  have artifactTaken : takeRun isMarkField (artifact ++ ' ' :: '>' :: List.replicate after '-') =
      some (artifact, ' ' :: '>' :: List.replicate after '-') := by
    apply takeRun_append isArtifact.nonempty
    · exact fun character member => isMarkField_of_isCoordinate (isArtifact.plain character member)
    · rintro character ⟨⟩
      decide
  have closed : Text.isBlankText (skipHyphens (List.replicate after '-')) = true := by
    rw [← List.append_nil (List.replicate after '-'), skipHyphens_replicate after (by simp)]
    rfl
  rw [moduleMark?, skipHyphens_replicate before (by simp)]
  simp [Text.trimStart_cons_blank, Text.trimStart_cons_solid, isGroup.trimStart_append,
    List.isPrefixOf?, show isBlank ' ' = true from rfl, show isBlank '>' = false from rfl,
    groupTaken, artifactTaken, closed]

/-! ## What is being built -/

/-- A number in digits. -/
structure IsNumber (text : List Char) : Prop where
  nonempty : text ≠ []
  digits : ∀ character ∈ text, Text.isDigit character = true

theorem IsNumber.takeRun_append {text rest : List Char} (isNumber : IsNumber text)
    (stopped : ∀ character ∈ rest.head?, Text.isDigit character = false) :
    takeRun Text.isDigit (text ++ rest) = some (text, rest) :=
  Transcript.takeRun_append isNumber.nonempty isNumber.digits stopped

/-- The place of a module among others, as a word. -/
inductive IsCount : List Char → Prop
  | of {position total : List Char} (isPosition : IsNumber position) (isTotal : IsNumber total) :
      IsCount ('[' :: (position ++ '/' :: (total ++ [']'])))

theorem IsCount.isSolid {count : List Char} (isCount : IsCount count) : IsSolid count := by
  obtain ⟨isPosition, isTotal⟩ := isCount
  intro character member
  simp only [List.mem_cons, List.mem_append, List.not_mem_nil, or_false] at member
  rcases member with rfl | inPosition | rfl | inTotal | rfl
  · rfl
  · exact Text.not_isBlank_of_isDigit (isPosition.digits character inPosition)
  · rfl
  · exact Text.not_isBlank_of_isDigit (isTotal.digits character inTotal)
  · rfl

/-- A count is a word with nothing but blanks after it. -/
theorem isCount_iff {text : List Char} :
    isCount text = true ↔
      ∃ count blanks, IsCount count ∧ Text.isBlankText blanks = true ∧ text = count ++ blanks := by
  constructor
  · intro counts
    rw [isCount, Option.any_eq_true] at counts
    obtain ⟨ending, read, blank⟩ := counts
    simp only [bind, Option.bind_eq_some_iff] at read
    obtain ⟨first, opened, ⟨position, second⟩, positionTaken, third, slash, ⟨total, fourth⟩,
      totalTaken, closed⟩ := read
    obtain ⟨positive, rfl, positionDigits⟩ := takeRun_eq_some positionTaken
    obtain ⟨nonempty, rfl, totalDigits⟩ := takeRun_eq_some totalTaken
    obtain rfl := Text.isPrefixOf?_eq_some closed
    obtain rfl := Text.isPrefixOf?_eq_some slash
    obtain rfl := Text.isPrefixOf?_eq_some opened
    exact ⟨_, ending, .of ⟨positive, positionDigits⟩ ⟨nonempty, totalDigits⟩, blank, by simp⟩
  · rintro ⟨count, blanks, ⟨isPosition, isTotal⟩, blank, rfl⟩
    rename_i position total
    have positionTaken : takeRun Text.isDigit (position ++ '/' :: (total ++ ']' :: blanks)) =
        some (position, '/' :: (total ++ ']' :: blanks)) :=
      isPosition.takeRun_append (by rintro character ⟨⟩; decide)
    have totalTaken : takeRun Text.isDigit (total ++ ']' :: blanks) = some (total, ']' :: blanks) :=
      isTotal.takeRun_append (by rintro character ⟨⟩; decide)
    rw [isCount]
    simp [List.isPrefixOf?, positionTaken, totalTaken, blank]

/-- A count is one word, in brackets, and nothing but blanks follow it. -/
theorem words_of_isCount {text : List Char} (isCount : isCount text = true) :
    ∃ count, words isBlank text = [count] ∧ count.head? = some '[' := by
  obtain ⟨count, blanks, counts, blank, rfl⟩ := isCount_iff.1 isCount
  have nonempty : count ≠ [] := by
    cases counts
    exact List.cons_ne_nil _ _
  refine ⟨count, ?_, ?_⟩
  · rw [Text.words_append_of_blank blank]
    exact Text.words_of_solid nonempty counts.isSolid
  · cases counts
    rfl

/-- After blanks there is only a version when there is one word, or a second one that begins
with a bracket. -/
theorem words_of_versionOnly? {text version : List Char} (found : versionOnly? text = some version) :
    words isBlank text = [version] ∨
      ∃ count, words isBlank text = [version, count] ∧ count.head? = some '[' := by
  rw [versionOnly?] at found
  split at found
  · cases found
  · split at found
    · rename_i word rest taken
      split at found
      · rename_i ended
        obtain rfl := Option.some.inj found
        obtain ⟨nonempty, whole, solid⟩ := takeRun_eq_some taken
        have isSolid : IsSolid word := by
          intro character member
          simpa using solid character member
        have atBlank : AtBlank rest := by
          rw [rest_of_takeRun taken]
          exact Text.atBlank_dropWhile _
        rw [← Text.words_trimStart, whole, Text.words_append_atBlank nonempty isSolid atBlank]
        rw [Bool.or_eq_true] at ended
        rcases ended with blank | isCount
        · rw [Text.words_of_blank blank]
          exact .inl rfl
        · obtain ⟨count, one, bracket⟩ := words_of_isCount isCount
          rw [Text.words_trimStart] at one
          rw [one]
          exact .inr ⟨count, rfl, bracket⟩
      · cases found
    · cases found

section Building

variable {name version tail : List Char}

/-- A version is not all that follows while words of the name are left. -/
theorem versionOnly?_eq_none {part : List Char} {last : Char} (member : last ∈ part)
    (solid : isBlank last = false) (isVersion : IsField version) (atBlank : AtBlank tail) :
    versionOnly? (part ++ ' ' :: (version ++ tail)) = none := by
  cases found : versionOnly? (part ++ ' ' :: (version ++ tail)) with
  | none => rfl
  | some other =>
      exfalso
      have split : words isBlank (part ++ ' ' :: (version ++ tail)) =
          words isBlank part ++ version :: words isBlank tail := by
        rw [Text.words_append_blank rfl,
          Text.words_append_atBlank isVersion.nonempty isVersion.isSolid atBlank]
      have nonempty : words isBlank part ≠ [] := Text.words_ne_nil member solid
      obtain ⟨word, rest, some⟩ := List.exists_cons_of_ne_nil nonempty
      rw [some, List.cons_append] at split
      rcases words_of_versionOnly? found with one | ⟨count, two, bracket⟩
      · rw [split] at one
        simp at one
      · rw [split] at two
        -- the second word is the version, or a word of the name with the version after it
        cases rest with
        | nil =>
            simp only [List.nil_append, List.cons.injEq] at two
            obtain ⟨first, front, rfl, plain⟩ := isVersion.exists_cons
            rw [← two.2.1] at bracket
            exact ne_of_isCoordinate plain (by decide) (Option.some.inj bracket)
        | cons next rest => simp at two

/-- What stands after a version: nothing, or a count. -/
inductive IsTail : List Char → Prop
  | nothing : IsTail []
  | count {position total : List Char} (isPosition : IsNumber position) (isTotal : IsNumber total) :
      IsTail (' ' :: '[' :: (position ++ '/' :: (total ++ [']'])))

theorem IsTail.atBlank (isTail : IsTail tail) : AtBlank tail := by
  cases isTail with
  | nothing =>
      intro character member
      cases member
  | count _ _ => exact Text.atBlank_cons rfl _

theorem IsTail.closed (isTail : IsTail tail) :
    (Text.isBlankText tail || isCount (trimStart tail)) = true := by
  cases isTail with
  | nothing => rfl
  | count isPosition isTotal =>
      rw [Bool.or_eq_true]
      right
      rw [Text.trimStart_cons_blank rfl, Text.trimStart_cons_solid rfl, isCount_iff]
      exact ⟨_, [], .of isPosition isTotal, rfl, by simp⟩

/-- Neither a version nor a count ends in a blank. -/
theorem IsTail.trimEnd_append (isTail : IsTail tail) (isVersion : IsField version)
    (front : List Char) :
    Text.trimEnd (front ++ (version ++ tail)) = front ++ (version ++ tail) := by
  cases isTail with
  | nothing => exact Text.trimEnd_append_word isVersion.nonempty isVersion.isSolid front []
  | @count position total _ _ =>
      have bracket := Text.trimEnd_append_word (List.cons_ne_nil ']' []) (by decide)
        (front ++ (version ++ ' ' :: '[' :: (position ++ '/' :: total))) []
      simpa [Text.trimEnd] using bracket

theorem versionOnly?_version (isVersion : IsField version) (isTail : IsTail tail) :
    versionOnly? (' ' :: (version ++ tail)) = some version := by
  have taken : takeRun (fun character => !isBlank character) (version ++ tail) =
      some (version, tail) := by
    apply takeRun_append isVersion.nonempty
    · intro character member
      simp [isVersion.isSolid character member]
    · intro character member
      simp [isTail.atBlank character member]
  rw [versionOnly?, Text.trimStart_cons_blank rfl, isVersion.trimStart_append]
  simp only [taken, isTail.closed, if_true]
  rfl

/-- The name is everything before the version. -/
theorem nameAndVersion?_name {front : List Char} {last : Char} (solid : isBlank last = false)
    (isVersion : IsField version) (isTail : IsTail tail) :
    nameAndVersion? (front ++ last :: ' ' :: (version ++ tail)) =
      some (front ++ [last], version) := by
  induction front with
  | nil =>
      rw [List.nil_append, nameAndVersion?, versionOnly?_version isVersion isTail]
      rfl
  | cons character front ih =>
      have more : versionOnly? (front ++ last :: ' ' :: (version ++ tail)) = none := by
        have member : last ∈ front ++ [last] := by simp
        have none := versionOnly?_eq_none member solid isVersion isTail.atBlank
        simpa using none
      rw [List.cons_append, nameAndVersion?, more, ih]
      rfl

/-- A name begins right behind the blank when it can. -/
theorem building?_cons {first : Char} (solid : isBlank first = false) (rest : List Char) :
    building? ("Building".toList ++ ' ' :: first :: rest) = nameAndVersion? (first :: rest) := by
  have begun := Text.isPrefixOf?_eq_some_iff.2
    (rfl : "Building".toList ++ ' ' :: first :: rest = _)
  have blanks : (' ' :: first :: rest).takeWhile isBlank = [' '] := by
    rw [List.takeWhile_cons_of_pos rfl, List.takeWhile_cons_of_neg (by simp [solid])]
  have body : trimStart (' ' :: first :: rest) = first :: rest := by
    rw [Text.trimStart_cons_blank rfl]
    exact Text.trimStart_cons_solid solid _
  simp only [building?, begun, blanks, afterBlanks?, body]

theorem building?_name (isName : IsName name) (isVersion : IsField version)
    (isTail : IsTail tail) :
    building? ("Building".toList ++ ' ' :: (name ++ ' ' :: (version ++ tail))) =
      some (name, version) := by
  obtain ⟨first, rest, begins, solidFirst⟩ := isName.begins
  obtain ⟨front, last, ends, solidLast, -⟩ := isName.ends
  have begun := building?_cons solidFirst (rest ++ ' ' :: (version ++ tail))
  rw [← List.cons_append, ← begins] at begun
  rw [begun, ends, List.append_assoc]
  exact nameAndVersion?_name solidLast isVersion isTail

end Building

theorem building?_eq_none {message : List Char}
    (other : firstWord message ≠ "Building".toList) : building? message = none := by
  rw [building?]
  split
  · rename_i rest begun
    rw [Text.isPrefixOf?_eq_some begun] at other
    have stop := any_head?_of_firstWord_ne (by decide) other
    cases rest with
    | nil => rfl
    | cons character rest =>
        have solid : isBlank character = false := stop
        rw [List.takeWhile_cons_of_neg (by simp [solid])]
  · rfl

/-! ## Goals -/

section Goal

variable {plugin artifact : List Char}

/-- What stands between the first hyphens of a goal and its end. -/
def goalText (plugin artifact : List Char) : List Char :=
  ' ' :: (plugin ++ ' ' :: '@' :: ' ' :: (artifact ++ " ---".toList))

theorem words_goalText (isArtifact : IsField artifact) :
    words isBlank (goalText plugin artifact) =
      words isBlank plugin ++ [['@'], artifact, "---".toList] := by
  have after : AtBlank " ---".toList := Text.atBlank_cons rfl _
  have ending : words isBlank (artifact ++ " ---".toList) = [artifact, "---".toList] := by
    rw [Text.words_append_atBlank isArtifact.nonempty isArtifact.isSolid after]
    rfl
  have sign : words isBlank (['@'] ++ ' ' :: (artifact ++ " ---".toList)) =
      words isBlank ['@'] ++ words isBlank (artifact ++ " ---".toList) :=
    Text.words_append_blank rfl _ _
  rw [ending] at sign
  rw [goalText, Text.words_cons_blank rfl, Text.words_append_blank rfl]
  exact congrArg (words isBlank plugin ++ ·) sign

/-- Where no word stands before the sign there are at least two blanks. -/
theorem two_le_blanks (wordless : words isBlank plugin = []) :
    2 ≤ ((goalText plugin artifact).takeWhile isBlank).length := by
  have blank : ∀ character ∈ plugin, isBlank character = true :=
    List.all_eq_true.1 (Text.blank_of_words_eq_nil wordless)
  rw [goalText, List.takeWhile_cons_of_pos rfl, List.takeWhile_append_of_pos blank,
    List.takeWhile_cons_of_pos rfl]
  simp only [List.length_cons, List.length_append]
  omega

theorem goal?_goal (plugin : List Char) (isArtifact : IsField artifact) :
    goal? ("---".toList ++ goalText plugin artifact) = some artifact := by
  have begun := Text.isPrefixOf?_eq_some_iff.2
    (rfl : "---".toList ++ goalText plugin artifact = _)
  have reversed : (words isBlank (goalText plugin artifact)).reverse =
      "---".toList :: artifact :: ['@'] :: (words isBlank plugin).reverse := by
    rw [words_goalText isArtifact]
    simp
  have blank : (goalText plugin artifact).head?.any isBlank = true := rfl
  simp only [goal?]
  rw [show ['-', '-', '-'] = "---".toList from rfl, begun]
  simp only [blank, reversed, Bool.not_true, Bool.false_eq_true, if_false]
  apply if_neg
  intro few
  rw [Bool.and_eq_true, List.isEmpty_iff, List.reverse_eq_nil_iff, decide_eq_true_iff] at few
  exact absurd few.2 (Nat.not_lt.2 (two_le_blanks few.1))

end Goal

theorem goal?_eq_none {message : List Char} (other : firstWord message ≠ "---".toList) :
    goal? message = none := by
  rw [goal?]
  split
  · rename_i rest begun
    rw [Text.isPrefixOf?_eq_some begun] at other
    have dashes : IsSolid "---".toList := by decide
    have stop := any_head?_of_firstWord_ne dashes other
    rw [stop]
    rfl
  · rfl

/-! ## Dependencies -/

section Dependency

variable {fields : List (List Char)}

/-- Fields with colons between them. -/
def coordinates (fields : List (List Char)) : List Char := [':'].intercalate fields

theorem mem_coordinates {character : Char} (member : character ∈ coordinates fields) :
    character = ':' ∨ ∃ field ∈ fields, character ∈ field := by
  induction fields with
  | nil => cases member
  | cons field fields ih =>
      cases fields with
      | nil =>
          refine .inr ⟨field, List.mem_cons_self, ?_⟩
          simpa [coordinates, List.intercalate] using member
      | cons next fields =>
          have split : coordinates (field :: next :: fields) =
              field ++ ':' :: coordinates (next :: fields) := by
            simp [coordinates, List.intercalate]
          rw [split, List.mem_append, List.mem_cons] at member
          rcases member with first | sign | rest
          · exact .inr ⟨field, List.mem_cons_self, first⟩
          · exact .inl sign
          · rcases ih rest with sign | ⟨other, among, inside⟩
            · exact .inl sign
            · exact .inr ⟨other, List.mem_cons_of_mem field among, inside⟩

theorem code_of_mem_coordinates (areFields : ∀ field ∈ fields, IsField field) {character : Char}
    (member : character ∈ coordinates fields) :
    43 ≤ character.toNat ∧ character.toNat ≤ 122 := by
  rcases mem_coordinates member with rfl | ⟨field, among, inside⟩
  · decide
  · have code := code_of_isCoordinate ((areFields field among).plain character inside)
    omega

theorem isSolid_coordinates (areFields : ∀ field ∈ fields, IsField field) :
    IsSolid (coordinates fields) := by
  intro character member
  exact not_isBlank_of_code (code_of_mem_coordinates areFields member)

/-- Nothing in coordinates opens a module mark, and the hyphens before one end in them. -/
theorem moduleMark?_coordinates (areFields : ∀ field ∈ fields, IsField field)
    (colon : ':' ∈ coordinates fields) (tail : List Char) :
    moduleMark? (coordinates fields ++ tail) = none := by
  have unopened : '<' ∉ coordinates fields := by
    intro member
    rcases mem_coordinates member with sign | ⟨field, among, inside⟩
    · exact absurd sign (by decide)
    · exact ne_of_isCoordinate ((areFields field among).plain '<' inside) (by decide) rfl
  obtain ⟨character, rest, begins⟩ : ∃ character rest,
      skipHyphens (coordinates fields) = character :: rest := by
    apply List.exists_cons_of_ne_nil
    rw [skipHyphens, Ne, List.dropWhile_eq_nil_iff]
    intro allHyphens
    exact absurd (allHyphens ':' colon) (by decide)
  have skipped : skipHyphens (coordinates fields ++ tail) = character :: (rest ++ tail) := by
    rw [skipHyphens] at begins
    rw [skipHyphens, List.dropWhile_append, begins]
    rfl
  apply moduleMark?_eq_none
  rw [skipped]
  intro opens
  apply unopened
  apply (List.dropWhile_sublist (· == '-')).mem
  rw [← skipHyphens, begins, ← Option.some.inj opens]
  exact List.mem_cons_self

/-- The first word of a listed dependency is its coordinates, and what follows tells whether it
is optional. -/
theorem dependency?_coordinates (nonempty : fields ≠ [])
    (areFields : ∀ field ∈ fields, IsField field) {tail : List Char} (atBlank : AtBlank tail) :
    dependency? (coordinates fields ++ tail) = (listed? fields).map fun dependency =>
      { dependency with optional := Text.contains "(optional)".toList tail } := by
  have solid := isSolid_coordinates areFields
  have split : (coordinates fields).splitOn ':' = fields := by
    apply List.splitOn_intercalate ':' _ nonempty
    intro field member isSign
    exact ne_of_isCoordinate ((areFields field member).plain ':' isSign) (by decide) rfl
  have valid : (fields.all fun field => !field.isEmpty && field.all isCoordinate) = true := by
    rw [List.all_eq_true]
    intro field member
    have isField := areFields field member
    simp only [Bool.and_eq_true, Bool.not_eq_true', List.isEmpty_eq_false_iff,
      List.all_eq_true]
    exact ⟨isField.nonempty, isField.plain⟩
  simp only [dependency?]
  rw [Text.takeWhile_append_atBlank solid atBlank, Text.dropWhile_append_atBlank solid atBlank,
    split, valid]
  rfl

end Dependency

/-! ## Kinds of lines -/

section Kind

variable {rest : List Char}

theorem ofText_of_moduleMark {group artifact : String}
    (marked : moduleMark? (trimStart rest) = some (group, artifact)) :
    Line.ofText (level ++ ' ' :: rest) = .moduleMark group artifact := by
  simp only [Line.ofText, message?_level, marked]

theorem ofText_of_building {name version : List Char}
    (unmarked : moduleMark? (trimStart rest) = none)
    (built : building? (trimStart rest) = some (name, version)) :
    Line.ofText (level ++ ' ' :: rest) =
      .building (String.ofList name) (String.ofList version) := by
  simp only [Line.ofText, message?_level, unmarked, built]

theorem ofText_of_goal {artifact : List Char} (unmarked : moduleMark? (trimStart rest) = none)
    (unbuilt : building? (trimStart rest) = none)
    (run : goal? (trimStart rest) = some artifact) :
    Line.ofText (level ++ ' ' :: rest) = .goal (String.ofList artifact) := by
  simp only [Line.ofText, message?_level, unmarked, unbuilt, run]

theorem ofText_of_dependency {listed : Dependency}
    (unmarked : moduleMark? (trimStart rest) = none)
    (unbuilt : building? (trimStart rest) = none) (idle : goal? (trimStart rest) = none)
    (found : dependency? (trimStart rest) = some listed) :
    Line.ofText (level ++ ' ' :: rest) = .dependency listed := by
  simp only [Line.ofText, message?_level, unmarked, unbuilt, idle, found]

/-- Coordinates of more than one field are no mark, no name of what is built and no goal. -/
theorem ofText_of_coordinates {first second : List Char} {others : List (List Char)}
    (areFields : ∀ field ∈ first :: second :: others, IsField field) {tail : List Char}
    (atBlank : AtBlank tail) {listed : Dependency}
    (found : listed? (first :: second :: others) = some listed)
    (margin : trimStart rest = coordinates (first :: second :: others) ++ tail) :
    Line.ofText (level ++ ' ' :: rest) = .dependency
      { listed with optional := Text.contains "(optional)".toList tail } := by
  have colon : ':' ∈ coordinates (first :: second :: others) := by
    simp [coordinates, List.intercalate]
  have word : firstWord (trimStart rest) = coordinates (first :: second :: others) := by
    rw [margin]
    exact firstWord_append (isSolid_coordinates areFields) atBlank
  apply ofText_of_dependency
  · rw [margin]
    exact moduleMark?_coordinates areFields colon tail
  · apply building?_eq_none
    rw [word]
    intro same
    rw [same] at colon
    exact absurd colon (by decide)
  · apply goal?_eq_none
    rw [word]
    intro same
    rw [same] at colon
    exact absurd colon (by decide)
  · rw [margin, dependency?_coordinates (List.cons_ne_nil _ _) areFields atBlank, found]
    rfl

end Kind

end ClassAtlas.Transcript
