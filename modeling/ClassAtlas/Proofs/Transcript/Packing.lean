import ClassAtlas.Proofs.Transcript.Joining

/-!
# Messages that something is packed

A build tool says what it packs in the words in which it says what module it builds, with a colon
behind the first word.  The name of a module is the shortest one that leaves nothing but a version
(`nameAndVersion?_words`), so that of several words behind the colon the last one but a count is
taken for the version, unless the word before it ends in a colon too.  Such a message changes
nothing else (`ofOutput_packing`).
-/

namespace ClassAtlas.Transcript

open Text (isBlank isBlankText trimStart words AtBlank IsSolid)

/-! ## Names and versions in words -/

/-- The version when these words are nothing but a version and optionally a count. -/
def versionOf? : List (List Char) → Option (List Char)
  | [version] => some version
  | [version, count] => if isCount count then some version else none
  | _ => none

/-- The last word of the shortest name that leaves nothing but a version, and the version. -/
def lastOfName? : List (List Char) → Option (List Char × List Char)
  | [] => none
  | word :: rest =>
      match versionOf? rest with
      | some version => some (word, version)
      | none => lastOfName? rest

/-- A text of one word is a count when the word is. -/
theorem isCount_trimStart {text word : List Char} (one : words isBlank text = [word]) :
    isCount (trimStart text) = isCount word := by
  obtain ⟨rest, -, solid, atBlank, whole, wordless⟩ := Text.exists_of_words_eq_cons one
  have blank := Text.blank_of_words_eq_nil wordless
  rw [whole, Bool.eq_iff_iff, isCount_iff, isCount_iff]
  constructor
  · rintro ⟨count, blanks, counts, blankEnd, same⟩
    have atEnd : AtBlank blanks := by
      intro character member
      exact List.all_eq_true.1 blankEnd character (List.mem_of_mem_head? member)
    have first := congrArg (List.takeWhile fun character => !isBlank character) same
    rw [Text.takeWhile_append_atBlank solid atBlank,
      Text.takeWhile_append_atBlank counts.isSolid atEnd] at first
    exact ⟨count, [], counts, rfl, by rw [first, List.append_nil]⟩
  · rintro ⟨count, blanks, counts, blankEnd, rfl⟩
    refine ⟨count, blanks ++ rest, counts, ?_, List.append_assoc _ _ _⟩
    rw [isBlankText, List.all_append, Bool.and_eq_true]
    exact ⟨blankEnd, blank⟩

/-- Behind a name stands nothing but a version when its words are nothing else. -/
theorem versionOnly?_eq {text : List Char} (atBlank : text.head?.any isBlank = true) :
    versionOnly? text = versionOf? (words isBlank text) := by
  rw [versionOnly?, atBlank]
  cases split : words isBlank text with
  | nil =>
      rw [Text.trimStart_of_blank (Text.blank_of_words_eq_nil split)]
      rfl
  | cons version others =>
      obtain ⟨rest, nonempty, solid, behind, whole, more⟩ := Text.exists_of_words_eq_cons split
      have taken : takeRun (fun character => !isBlank character) (version ++ rest) =
          some (version, rest) := by
        apply takeRun_append nonempty
        · intro character member
          simp [solid character member]
        · intro character member
          simp [behind character member]
      have blank : isBlankText rest = others.isEmpty := by rw [Text.isBlankText_eq, more]
      simp only [Bool.not_true, Bool.false_eq_true, if_false, whole, taken, blank]
      rcases others with _ | ⟨first, _ | ⟨second, others⟩⟩
      · rfl
      · rw [isCount_trimStart more]
        rfl
      · have uncounted : isCount (trimStart rest) = false := by
          rw [Bool.eq_false_iff]
          intro counts
          obtain ⟨count, one, -⟩ := words_of_isCount counts
          rw [Text.words_trimStart, more] at one
          cases one
        rw [uncounted]
        rfl

/-! ## The shortest name -/

/-- What matters of a name and a version: the last character of the name, and the version. -/
def ending (found : List Char × List Char) : Option Char × List Char :=
  (found.1.getLast?, found.2)

theorem nameAndVersion?_nonempty {text name version : List Char}
    (found : nameAndVersion? text = some (name, version)) : name ≠ [] := by
  cases text with
  | nil => cases found
  | cons character rest =>
      rw [nameAndVersion?] at found
      split at found
      · cases found
        exact List.cons_ne_nil _ _
      · obtain ⟨⟨shorter, other⟩, -, same⟩ := Option.map_eq_some_iff.1 found
        cases same
        exact List.cons_ne_nil _ _

/-- A name that cannot end at a character ends later. -/
theorem nameAndVersion?_cons (character : Char) {rest : List Char}
    (more : versionOnly? rest = none) :
    (nameAndVersion? (character :: rest)).map ending = (nameAndVersion? rest).map ending := by
  rw [nameAndVersion?, more]
  cases found : nameAndVersion? rest with
  | none => rfl
  | some both =>
      obtain ⟨name, version⟩ := both
      obtain ⟨first, others, rfl⟩ := List.exists_cons_of_ne_nil (nameAndVersion?_nonempty found)
      simp [ending, List.getLast?_cons_cons]

theorem versionOnly?_cons_solid {character : Char} (solid : isBlank character = false)
    (rest : List Char) : versionOnly? (character :: rest) = none := by
  simp [versionOnly?, solid]

/-- No name ends within a word. -/
theorem nameAndVersion?_append {front : List Char} {last : Char} (solid : IsSolid front)
    (solidLast : isBlank last = false) (rest : List Char) :
    (nameAndVersion? (front ++ last :: rest)).map ending =
      (nameAndVersion? (last :: rest)).map ending := by
  induction front with
  | nil => rfl
  | cons character front ih =>
      have solidFront : IsSolid front := fun other member =>
        solid other (List.mem_cons_of_mem character member)
      have inWord : versionOnly? (front ++ last :: rest) = none := by
        cases front with
        | nil => exact versionOnly?_cons_solid solidLast rest
        | cons next front => exact versionOnly?_cons_solid (solidFront next List.mem_cons_self) _
      rw [List.cons_append, nameAndVersion?_cons character inWord, ih solidFront]

/-- No name ends among blanks that do not leave a version either. -/
theorem nameAndVersion?_trimStart {text : List Char} (more : versionOf? (words isBlank text) = none) :
    (nameAndVersion? (trimStart text)).map ending = (nameAndVersion? text).map ending := by
  induction text with
  | nil => rfl
  | cons character text ih =>
      cases blank : isBlank character with
      | false => rw [Text.trimStart_cons_solid blank]
      | true =>
          rw [Text.words_cons_blank blank] at more
          have later : versionOnly? text = none := by
            cases atBlank : text.head?.any isBlank with
            | true => rw [versionOnly?_eq atBlank, more]
            | false =>
                rw [versionOnly?, atBlank]
                rfl
          rw [Text.trimStart_cons_blank blank, ih more, nameAndVersion?_cons character later]

/-- The name ends with a word, and the version stands behind it. -/
theorem nameAndVersion?_words (text : List Char) :
    (nameAndVersion? (trimStart text)).map ending =
      (lastOfName? (words isBlank text)).map ending := by
  induction split : words isBlank text generalizing text with
  | nil =>
      rw [Text.trimStart_of_blank (Text.blank_of_words_eq_nil split)]
      rfl
  | cons word others ih =>
      obtain ⟨rest, nonempty, solid, behind, whole, more⟩ := Text.exists_of_words_eq_cons split
      obtain ⟨front, last, rfl⟩ : ∃ front last, word = front ++ [last] :=
        ⟨_, _, (List.dropLast_append_getLast nonempty).symm⟩
      have solidLast : isBlank last = false := solid last (by simp)
      have solidFront : IsSolid front := fun character member =>
        solid character (List.mem_append_left _ member)
      rw [whole, List.append_assoc, List.singleton_append,
        nameAndVersion?_append solidFront solidLast, lastOfName?]
      have behindWord : versionOnly? rest = versionOf? others := by
        cases rest with
        | nil =>
            rw [Text.words_nil] at more
            rw [← more]
            rfl
        | cons blank rest =>
            have atBlank : (blank :: rest).head?.any isBlank = true := behind blank rfl
            rw [versionOnly?_eq atBlank, more]
      cases found : versionOf? others with
      | some version =>
          rw [found] at behindWord
          rw [nameAndVersion?, behindWord]
          simp [ending]
      | none =>
          rw [found] at behindWord
          rw [nameAndVersion?_cons last behindWord,
            ← nameAndVersion?_trimStart (by rw [more, found]), ih rest more]

/-! ## Messages that something is packed -/

/-- The message that something is packed. -/
def packing (word text : String) : String :=
  "[INFO] Building " ++ word ++ ": " ++ text

/-- The words without a count that stands behind another word at their end. -/
def withoutCount (all : List (List Char)) : List (List Char) :=
  match all.reverse with
  | count :: word :: others => if isCount count then (word :: others).reverse else all
  | _ => all

/-- The version for which something that is packed is taken: of several words but a count at their
end the last one, when the word before it does not end in a colon. -/
def strayVersion? (text : String) : Option String :=
  match (withoutCount (words isBlank (withoutColours text.toList))).reverse with
  | version :: word :: _ =>
      if word.getLast? == some ':' then none else some (String.ofList version)
  | _ => none

/-- The version that a line with this name gives for a module. -/
def statedBy? : Option Char × List Char → Option String
  | (last, version) => if last == some ':' then none else some (String.ofList version)

theorem versionOf?_eq_none {all : List (List Char)} (many : 2 < all.length) :
    versionOf? all = none := by
  match all, many with
  | _ :: _ :: _ :: _, _ => rfl

/-- The last two of several words: a version and a count, or the last word of a name and a
version. -/
theorem lastOfName?_append (first : List Char) (front : List (List Char))
    (word last : List Char) :
    lastOfName? (first :: (front ++ [word, last])) =
      if isCount last then some (front.getLast?.getD first, word) else some (word, last) := by
  induction front generalizing first with
  | nil => by_cases counts : isCount last <;> simp [lastOfName?, versionOf?, counts]
  | cons next front ih =>
      have many : versionOf? (next :: (front ++ [word, last])) = none :=
        versionOf?_eq_none (by simp)
      rw [List.cons_append, lastOfName?, many, ih next, List.getLast?_cons]
      rfl

/-- Behind a first word that ends in a colon, the version is the stray one. -/
theorem statedBy?_lastOfName? {first : List Char} (colon : first.getLast? = some ':')
    (text : String) :
    ((lastOfName? (first :: words isBlank (withoutColours text.toList))).map ending).bind
      statedBy? = strayVersion? text := by
  rw [strayVersion?]
  rcases List.eq_nil_or_concat (words isBlank (withoutColours text.toList)) with
    none | ⟨others, last, split⟩
  · rw [none]
    rfl
  · rcases List.eq_nil_or_concat others with rfl | ⟨front, word, rfl⟩
    · rw [split]
      simp [lastOfName?, versionOf?, ending, statedBy?, colon, withoutCount]
    · have whole : words isBlank (withoutColours text.toList) = front ++ [word, last] := by
        simp [split]
      rw [whole, lastOfName?_append]
      by_cases counts : isCount last = true
      · rcases List.eq_nil_or_concat front with rfl | ⟨others, next, rfl⟩
        · simp [counts, ending, statedBy?, colon, withoutCount]
        · simp [counts, ending, statedBy?, withoutCount]
      · simp [counts, ending, statedBy?, withoutCount]

/-! ## What the line is -/

/-- The line in which a name and a version are found, or none. -/
def Line.ofBuilding : Option (List Char × List Char) → Line
  | some (name, version) => .building (String.ofList name) (String.ofList version)
  | none => .other

namespace Line

variable (found : Option (List Char × List Char))

theorem marked?_ofBuilding : (ofBuilding found).marked? = none := by
  cases found <;> rfl

theorem goalArtifact?_ofBuilding : (ofBuilding found).goalArtifact? = none := by
  cases found <;> rfl

theorem dependency?_ofBuilding : (ofBuilding found).dependency? = none := by
  cases found <;> rfl

theorem builtVersion?_ofBuilding :
    (ofBuilding found).builtVersion? = (found.map ending).bind statedBy? := by
  cases found with
  | none => rfl
  | some both => simp [ofBuilding, builtVersion?, ending, statedBy?]

end Line

/-- A message that something is built is no other kind of message, also when no version is found
in it. -/
theorem ofText_building_cons {first : Char} (solid : isBlank first = false) (rest : List Char) :
    Line.ofText (level ++ ' ' :: ("Building".toList ++ ' ' :: first :: rest)) =
      .ofBuilding (nameAndVersion? (first :: rest)) := by
  have word : firstWord ("Building".toList ++ ' ' :: first :: rest) = "Building".toList :=
    firstWord_append (by decide) (Text.atBlank_cons rfl _)
  have unmarked : moduleMark? ("Building".toList ++ ' ' :: first :: rest) = none :=
    moduleMark?_eq_none (show some 'B' ≠ some '<' by decide)
  have idle : goal? ("Building".toList ++ ' ' :: first :: rest) = none := by
    apply goal?_eq_none
    rw [word]
    decide
  have unlisted : dependency? ("Building".toList ++ ' ' :: first :: rest) = none := by
    have none : listed? ["Building".toList] = none := rfl
    rw [firstWord] at word
    simp only [dependency?, word, none, show "Building".toList.splitOn ':' = ["Building".toList]
      from rfl, Option.map_none, ite_self]
  have built := building?_cons solid rest
  cases found : nameAndVersion? (first :: rest) with
  | none =>
      rw [found] at built
      have margin : trimStart ("Building".toList ++ ' ' :: first :: rest) =
          "Building".toList ++ ' ' :: first :: rest := rfl
      simp only [Line.ofText, message?_level, margin, unmarked, built, idle, unlisted]
      rfl
  | some both =>
      rw [found] at built
      exact ofText_of_building unmarked built

section Packing

variable {word : String} (text : String)

theorem toList_packing (word : String) : (packing word text).toList = level ++ ' ' ::
    ("Building".toList ++ ' ' :: (word.toList ++ ':' :: ' ' :: text.toList)) := by
  unfold packing
  simp only [String.toList_append, List.append_assoc]
  rfl

/-- The line is read as the words before and after the colon. -/
theorem ofRaw_packing (solid : IsSolid word.toList) (plain : '\x1b' ∉ word.toList) :
    Line.ofRaw (packing word text).toList = .ofBuilding (nameAndVersion?
      (word.toList ++ ':' :: Text.trimEnd (' ' :: withoutColours text.toList))) := by
  have opening : '\x1b' ∉
      level ++ ' ' :: ("Building".toList ++ ' ' :: (word.toList ++ [':', ' '])) := by
    simp [plain, level]
  have left := withoutColours_append opening text.toList
  have kept := Text.trimEnd_append_solid (show isBlank ':' = false from rfl)
    (level ++ ' ' :: ("Building".toList ++ ' ' :: word.toList)) (' ' :: withoutColours text.toList)
  simp only [List.append_assoc, List.cons_append, List.nil_append] at left kept
  rw [Line.ofRaw, toList_packing, left, kept]
  cases begins : word.toList with
  | nil => exact ofText_building_cons rfl _
  | cons first rest =>
      have solidFirst : isBlank first = false := solid first (begins ▸ List.mem_cons_self)
      exact ofText_building_cons solidFirst _

/-- The version that the line gives for a module is the stray one. -/
theorem builtVersion?_packing (solid : IsSolid word.toList) (plain : '\x1b' ∉ word.toList) :
    (Line.ofRaw (packing word text).toList).builtVersion? = strayVersion? text := by
  have atBlank : AtBlank (Text.trimEnd (' ' :: withoutColours text.toList)) :=
    (Text.atBlank_cons rfl _).trimEnd
  have solidColon : IsSolid (word.toList ++ [':']) := by
    simpa [IsSolid, or_imp, forall_and] using ⟨solid, rfl⟩
  have split : words isBlank
      (word.toList ++ ':' :: Text.trimEnd (' ' :: withoutColours text.toList)) =
        (word.toList ++ [':']) :: words isBlank (withoutColours text.toList) := by
    have first := Text.words_append_atBlank (by simp) solidColon atBlank
    rw [Text.words_trimEnd, Text.words_cons_blank rfl] at first
    simpa using first
  have begins : trimStart
      (word.toList ++ ':' :: Text.trimEnd (' ' :: withoutColours text.toList)) =
        word.toList ++ ':' :: Text.trimEnd (' ' :: withoutColours text.toList) := by
    cases letters : word.toList with
    | nil => rfl
    | cons first rest =>
        exact Text.trimStart_cons_solid (solid first (letters ▸ List.mem_cons_self)) _
  have found := nameAndVersion?_words
    (word.toList ++ ':' :: Text.trimEnd (' ' :: withoutColours text.toList))
  rw [begins, split] at found
  rw [ofRaw_packing text solid plain, Line.builtVersion?_ofBuilding, found]
  exact statedBy?_lastOfName? (by simp) text

end Packing

/-! ## What the message changes -/

/-- A line that is at most one that something is built adds at most a version. -/
theorem foldl_add_insert (before after : List Line) (found : Option (List Char × List Char)) :
    (before ++ .ofBuilding found :: after).foldl add {} =
      { (before ++ after).foldl add {} with
        version := (before.foldl add {}).version.or
          ((Line.ofBuilding found).builtVersion?.or (after.foldl add {}).version) } := by
  simp only [foldl_add_empty, List.findSome?_append, List.filterMap_append, List.findSome?_cons,
    List.filterMap_cons, Line.marked?_ofBuilding, Line.goalArtifact?_ofBuilding,
    Line.dependency?_ofBuilding]
  cases (Line.ofBuilding found).builtVersion? <;> rfl

theorem version_append (before after : List Line) :
    ((before ++ after).foldl add {}).version =
      (before.foldl add {}).version.or (after.foldl add {}).version := by
  simp only [foldl_add_empty, List.findSome?_append]

/-- A line among others is read on its own. -/
theorem ofOutput_insert (before after : List String) {line : String}
    (single : '\n' ∉ line.toList) :
    ofOutput ("\n".intercalate (before ++ line :: after)) =
      (before.flatMap (said ·.toList) ++
        Line.ofRaw line.toList :: after.flatMap (said ·.toList)).foldl add {} := by
  rw [ofOutput_intercalate, List.flatMap_append, List.flatMap_cons, said_of_single single,
    List.foldl_append, List.foldl_append, foldl_add_filter, List.foldl_append]
  rfl

section Insertion

variable {word text : String}

theorem newline_not_mem_packing (solid : IsSolid word.toList) (single : '\n' ∉ text.toList) :
    '\n' ∉ (packing word text).toList := by
  have unbroken : '\n' ∉ word.toList := by
    intro member
    exact absurd (solid '\n' member) (by decide)
  rw [toList_packing]
  simp [level, unbroken, single]

/-- The message that something is packed, among any lines before and after it, changes at most the
version, and that only where the lines before it give none and what is packed holds a stray
version.  So it changes nothing, wherever it stands, exactly when there is no stray version. -/
theorem ofOutput_packing (solid : IsSolid word.toList) (plain : '\x1b' ∉ word.toList)
    (single : '\n' ∉ text.toList) :
    (∀ before after : List String,
      ofOutput ("\n".intercalate (before ++ packing word text :: after)) =
        { ofOutput ("\n".intercalate (before ++ after)) with
          version := (ofOutput ("\n".intercalate before)).version.or
            ((strayVersion? text).or (ofOutput ("\n".intercalate after)).version) }) ∧
    ((∀ before after : List String,
      ofOutput ("\n".intercalate (before ++ packing word text :: after)) =
        ofOutput ("\n".intercalate (before ++ after))) ↔ strayVersion? text = none) := by
  have inserted : ∀ before after : List String,
      ofOutput ("\n".intercalate (before ++ packing word text :: after)) =
        { ofOutput ("\n".intercalate (before ++ after)) with
          version := (ofOutput ("\n".intercalate before)).version.or
            ((strayVersion? text).or (ofOutput ("\n".intercalate after)).version) } := by
    intro before after
    rw [ofOutput_insert before after (newline_not_mem_packing solid single),
      ← builtVersion?_packing text solid plain, ofRaw_packing text solid plain, foldl_add_insert,
      ofOutput_intercalate, ofOutput_intercalate, ofOutput_intercalate, List.flatMap_append]
  refine ⟨inserted, ?_, ?_⟩
  · intro unchanged
    have alone := congrArg version ((inserted [] []).symm.trans (unchanged [] []))
    have silent : (ofOutput ("\n".intercalate [])).version = none := rfl
    simp only [List.append_nil, silent, Option.none_or, Option.or_none] at alone
    exact alone
  · intro missing before after
    have kept : (ofOutput ("\n".intercalate (before ++ after))).version =
        (ofOutput ("\n".intercalate before)).version.or
          (ofOutput ("\n".intercalate after)).version := by
      simp only [ofOutput_intercalate, List.flatMap_append, version_append]
    rw [inserted, missing, Option.none_or, ← kept]

end Insertion

theorem ofOutput_packing_spaced :
    IsSolid "jar".toList ∧ '\x1b' ∉ "jar".toList ∧ '\n' ∉ "/my files/app.jar [1/2]".toList ∧
      (ofOutput ("\n".intercalate ["[INFO] Building jar: /my files/app.jar [1/2]",
        "[INFO] Building app 1.0"])).version = some "files/app.jar" := by
  have solid : IsSolid "jar".toList := by decide
  have plain : '\x1b' ∉ "jar".toList := by decide
  have single : '\n' ∉ "/my files/app.jar [1/2]".toList := by decide
  have changed := (ofOutput_packing solid plain single).1 [] ["[INFO] Building app 1.0"]
  have stray : strayVersion? "/my files/app.jar [1/2]" = some "files/app.jar" := by decide +kernel
  rw [stray] at changed
  exact ⟨solid, plain, single, congrArg version changed⟩

/-- The message that something is packed does change what is reported: the last word of a path
with a blank is taken for the version of the module. -/
theorem not_ofOutput_packing :
    ¬∀ (word text : String), word ≠ "" → (∀ letter ∈ word.toList, Text.isAsciiLetter letter) →
      '\n' ∉ text.toList → ∀ before after : List String,
        ofOutput ("\n".intercalate (before ++ packing word text :: after)) =
          ofOutput ("\n".intercalate (before ++ after)) := by
  intro unchanged
  have letters : ∀ letter ∈ "jar".toList, Text.isAsciiLetter letter :=
    List.all_eq_true.1 (by decide)
  have same := congrArg version
    (unchanged "jar" "/my files/app.jar" (by decide) letters (by decide) [] [])
  exact absurd same (by decide +kernel)

end ClassAtlas.Transcript
