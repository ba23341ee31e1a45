import ClassAtlas.Proofs.Descriptor.Removal
import ClassAtlas.Proofs.Text.Blank

/-!
# Leaves found by pattern

Which leaves and module names are found in the text of plain content.  Text without
tags, end tags and start tags that nothing but blanks follow are passed over; a leaf
is found when its name is of the kind that is looked for.
-/

namespace ClassAtlas.Descriptor

open Markup

/-! ## Names -/

/-- A name of the kind that leaves have which are found by pattern. -/
def isFound (name : Name) : Bool :=
  match name.letters with
  | [] => false
  | first :: others =>
      (Text.isAsciiLetter first || first == '_') && others.all Leaf.isNameRest

theorem scanName_letters (name : Name) (rest : List Char) :
    Leaf.scanName (name.letters ++ '>' :: rest) =
      if isFound name then some (name.letters, rest) else none := by
  obtain ⟨first, others, letters, _⟩ := name.exists_cons
  have stop : Leaf.isNameRest '>' = false := by decide
  have noEnd : '>' ∉ others := fun member =>
    closing_not_mem name (letters ▸ List.mem_cons_of_mem first member)
  simp only [isFound, letters, List.cons_append, Leaf.scanName]
  cases (Text.isAsciiLetter first || first == '_') with
  | false => rfl
  | true =>
      cases all : others.all Leaf.isNameRest with
      | true =>
          have every := List.all_eq_true.1 all
          rw [if_pos rfl, List.dropWhile_append_of_pos every, List.takeWhile_append_of_pos every,
            List.dropWhile_cons_of_neg (by simp [stop]),
            List.takeWhile_cons_of_neg (by simp [stop])]
          simp
      | false =>
          have some : others.dropWhile Leaf.isNameRest ≠ [] := by
            intro none
            rw [List.dropWhile_eq_nil_iff] at none
            rw [List.all_eq_true.2 none] at all
            cases all
          obtain ⟨character, more, shape⟩ := List.exists_cons_of_ne_nil some
          have member : character ∈ others :=
            (List.dropWhile_sublist _).subset (shape ▸ List.mem_cons_self)
          have other : character ≠ '>' := fun equal => noEnd (equal ▸ member)
          rw [if_pos rfl, List.dropWhile_append, shape]
          simp [other]

theorem scanName_of_slash (rest : List Char) : Leaf.scanName ('/' :: rest) = none := by
  rw [Leaf.scanName, if_neg (by decide)]

theorem isNameRest_of_isPropertyPart {character : Char}
    (part : isPropertyPart character = true) : Leaf.isNameRest character = true := by
  have number : character.val.toNat = character.toNat := rfl
  simp only [isPropertyPart, Text.isAsciiLetter, Text.isAsciiDigit, Bool.or_eq_true,
    Bool.and_eq_true, decide_eq_true_eq, beq_iff_eq, Char.le_def, UInt32.le_iff_toNat_le,
    Char.reduceVal, UInt32.reduceToNat, number, ← Char.toNat_inj, Char.reduceToNat] at part
  have small : character.toNat < 128 := by omega
  simp only [Leaf.isNameRest, Text.isWordCharacter, if_pos small, Char.isAlphanum, Char.isAlpha,
    Char.isUpper, Char.isLower, Char.isDigit, Bool.or_eq_true, Bool.and_eq_true,
    decide_eq_true_eq, beq_iff_eq, ge_iff_le, UInt32.le_iff_toNat_le, Char.reduceVal,
    UInt32.reduceToNat, number, ← Char.toNat_inj, Char.reduceToNat]
  omega

theorem isFound_of_isPropertyName {name : Name} (plain : isPropertyName name.letters = true) :
    isFound name = true := by
  rw [isFound]
  cases letters : name.letters with
  | nil => simp [isPropertyName, letters] at plain
  | cons first others =>
      rw [letters, isPropertyName, Bool.and_eq_true] at plain
      have rest : others.all Leaf.isNameRest = true :=
        List.all_eq_true.2 fun character member =>
          isNameRest_of_isPropertyPart (List.all_eq_true.1 plain.2 character member)
      rw [Bool.and_eq_true]
      exact ⟨plain.1, rest⟩

/-! ## Passing over -/

section Passing

variable {stretch rest : List Char}

theorem all_of_plain (plain : '<' ∉ stretch) (rest : List Char) :
    Leaf.all (stretch ++ rest) = Leaf.all rest := by
  induction stretch with
  | nil => rfl
  | cons character others ih =>
      obtain ⟨other, later⟩ := not_or.1 (mt List.mem_cons.2 plain)
      rw [List.cons_append, Leaf.all]
      · exact ih later
      · exact fun equal => other equal.symm

theorem all_of_scan_eq_none (missing : Leaf.scan rest = none) :
    Leaf.all ('<' :: rest) = Leaf.all rest := by
  rw [Leaf.all]
  split
  · simp_all
  · rfl

theorem all_of_scan_eq_some {leaf : Leaf} {after : List Char}
    (found : Leaf.scan rest = some (leaf, after)) :
    Leaf.all ('<' :: rest) = leaf :: Leaf.all after := by
  rw [Leaf.all]
  split
  · simp_all
  · simp_all

theorem all_of_slash (rest : List Char) : Leaf.all ('<' :: '/' :: rest) = Leaf.all rest := by
  have missing : Leaf.scan ('/' :: rest) = none := by
    rw [Leaf.scan, scanName_of_slash]
  rw [all_of_scan_eq_none missing]
  exact all_of_plain (by decide : '<' ∉ ['/']) rest

theorem all_closingTag (name : Name) (rest : List Char) :
    Leaf.all (name.closingTag ++ rest) = Leaf.all rest := by
  have plain : '<' ∉ name.letters ++ ['>'] := by simp [opening_not_mem]
  have shape : name.closingTag ++ rest = '<' :: '/' :: (name.letters ++ ['>'] ++ rest) := rfl
  rw [shape, all_of_slash, all_of_plain plain]

/-- What is taken as a name is passed over when it is none. -/
theorem all_of_scanName {text name : List Char}
    (named : Leaf.scanName text = some (name, rest)) : Leaf.all text = Leaf.all rest := by
  unfold Leaf.scanName at named
  split at named
  · cases named
  · rename_i first others
    split at named
    · rename_i start
      split at named
      · rename_i after shape
        cases named
        have whole := List.takeWhile_append_dropWhile (p := Leaf.isNameRest) (l := others)
        have plain : '<' ∉ first :: (others.takeWhile Leaf.isNameRest ++ ['>']) := by
          have noStart : first ≠ '<' := by
            intro equal
            rw [equal] at start
            exact absurd start (by decide)
          have noRest : '<' ∉ others.takeWhile Leaf.isNameRest := fun member =>
            absurd (List.mem_takeWhile_imp member) (by decide)
          simp [Ne.symm noStart, noRest]
        have stretch : first :: others =
            first :: (others.takeWhile Leaf.isNameRest ++ ['>']) ++ rest := by
          rw [shape] at whole
          simp [whole]
        rw [stretch, all_of_plain plain]
      · cases named
    · cases named

end Passing

/-! ## Leaves -/

section Leaves

variable (name : Name) (value : Value) (rest : List Char)

theorem scan_leaf :
    Leaf.scan (name.letters ++ '>' :: (value.letters ++ (name.closingTag ++ rest))) =
      if isFound name then some (⟨name.letters, value.letters, name.letters⟩, rest)
      else none := by
  have plain : '<' ∉ value.letters := Value.not_mem_letters (by decide)
  have tag : AtTag (name.closingTag ++ rest) := name.atTag_closingTag rest
  have shape : name.closingTag ++ rest = '<' :: '/' :: (name.letters ++ '>' :: rest) := by
    simp [Name.closingTag]
  rw [Leaf.scan, scanName_letters]
  cases found : isFound name with
  | false => rfl
  | true =>
      simp only [if_true]
      rw [dropWhile_atTag plain tag, takeWhile_atTag plain tag, shape]
      simp only [scanName_letters, found, if_true, Option.map_some]

/-- A leaf is found, or passed over, as a whole. -/
theorem all_leaf :
    Leaf.all (name.openingTag ++ (value.letters ++ (name.closingTag ++ rest))) =
      (if isFound name then [⟨name.letters, value.letters, name.letters⟩] else []) ++
        Leaf.all rest := by
  have shape : name.openingTag ++ (value.letters ++ (name.closingTag ++ rest)) =
      '<' :: (name.letters ++ '>' :: (value.letters ++ (name.closingTag ++ rest))) := by
    simp [Name.openingTag]
  have scanned := scan_leaf name value rest
  rw [shape]
  cases found : isFound name with
  | true =>
      rw [found, if_pos rfl] at scanned
      rw [all_of_scan_eq_some scanned]
      rfl
  | false =>
      rw [found, if_neg Bool.false_ne_true] at scanned
      have plain : '<' ∉ name.letters ++ '>' :: value.letters := by
        have noValue : '<' ∉ value.letters := Value.not_mem_letters (by decide)
        simp [opening_not_mem, noValue]
      have stretch : name.letters ++ '>' :: (value.letters ++ (name.closingTag ++ rest)) =
          (name.letters ++ '>' :: value.letters) ++ (name.closingTag ++ rest) := by
        simp
      rw [all_of_scan_eq_none scanned, stretch, all_of_plain plain, all_closingTag]
      rfl

end Leaves

/-! ## Start tags -/

/-- Nothing but blanks stands before the next tag. -/
def AtBlank (rest : List Char) : Prop :=
  Text.isBlankText (rest.takeWhile (· != '<')) = true

theorem fields_of_all_eq {text rest : List Char} (same : Leaf.all text = Leaf.all rest) :
    fields text = fields rest := by
  rw [fields, fields, pairs, pairs, same]

theorem all_of_passed {rest : List Char} (name : Name)
    (missing : Leaf.scan (name.letters ++ '>' :: rest) = none) :
    Leaf.all (name.openingTag ++ rest) = Leaf.all rest := by
  have shape : name.openingTag ++ rest = '<' :: (name.letters ++ '>' :: rest) := by
    simp [Name.openingTag]
  have plain : '<' ∉ name.letters ++ ['>'] := by simp [opening_not_mem]
  have stretch : name.letters ++ '>' :: rest = name.letters ++ ['>'] ++ rest := by simp
  rw [shape, all_of_scan_eq_none missing, stretch, all_of_plain plain]

/-- A leaf of blanks is no field. -/
theorem fields_cons_blank {text : List Char} {leaf : Leaf} {after : List Char}
    (shape : Leaf.all text = leaf :: Leaf.all after)
    (blank : Text.isBlankText leaf.content = true) : fields text = fields after := by
  rw [fields, fields, pairs, pairs, shape, List.filterMap_cons]
  cases pair : leaf.pair? with
  | none => rfl
  | some entry =>
      rw [Leaf.pair?] at pair
      split at pair
      · cases pair
        simp [Text.trim_of_blank blank]
      · cases pair

/-- A start tag that only blanks follow does not add a field. -/
theorem fields_openingTag (name : Name) {rest : List Char} (blank : AtBlank rest) :
    fields (name.openingTag ++ rest) = fields rest := by
  cases scanned : Leaf.scan (name.letters ++ '>' :: rest) with
  | none => exact fields_of_all_eq (all_of_passed name scanned)
  | some found =>
      obtain ⟨leaf, after⟩ := found
      have shape : name.openingTag ++ rest = '<' :: (name.letters ++ '>' :: rest) := by
        simp [Name.openingTag]
      have all := all_of_scan_eq_some scanned
      rw [← shape] at all
      rw [Leaf.scan, scanName_letters] at scanned
      split at scanned
      · cases scanned
      · rename_i opened content named
        split at named
        · cases named
          split at scanned
          · rename_i ending atEnd
            simp only [Option.map_eq_some_iff, Prod.mk.injEq] at scanned
            obtain ⟨⟨closed, final⟩, named, rfl, rfl⟩ := scanned
            have plain : '<' ∉ rest.takeWhile (· != '<') := fun member =>
              absurd (List.mem_takeWhile_imp member) (by decide)
            have passed : Leaf.all rest = Leaf.all final := by
              rw [← List.takeWhile_append_dropWhile (p := (· != '<')) (l := rest), atEnd,
                all_of_plain plain, all_of_slash, all_of_scanName named]
            rw [fields_cons_blank all blank, fields_of_all_eq passed]
          · cases scanned
        · cases named

/-! ## Fields of plain content -/

/-- The names and values of those leaves that are found by pattern. -/
def foundIn (leaves : List (Name × Value)) : List (String × String) :=
  (leaves.filter fun leaf => isFound leaf.1).map fun leaf => (leaf.1.text, leaf.2.text)

theorem foundIn_cons (name : Name) (value : Value) (leaves : List (Name × Value)) :
    foundIn ((name, value) :: leaves) =
      (if isFound name then [(name.text, value.text)] else []) ++ foundIn leaves := by
  cases found : isFound name <;> simp [foundIn, found]

theorem foundIn_append (first second : List (Name × Value)) :
    foundIn (first ++ second) = foundIn first ++ foundIn second := by
  simp [foundIn]

theorem pair?_leaf (name : Name) (value : Value) :
    Leaf.pair? ⟨name.letters, value.letters, name.letters⟩ = some (name.text, value.text) := by
  simp [Leaf.pair?, value.trimmed, Name.text, Value.text]

theorem fields_leaf (name : Name) (value : Value) (rest : List Char) :
    fields (name.openingTag ++ (value.letters ++ (name.closingTag ++ rest))) =
      foundIn [(name, value)] ++ fields rest := by
  rw [fields, fields, pairs, pairs, all_leaf, foundIn_cons]
  cases found : isFound name <;> simp [pair?_leaf, Value.isEmpty_text, foundIn]

theorem ne_of_mem_spaces (spaces : Spaces) :
    ∀ character ∈ spaces.letters, (character != '<') = true :=
  bne_of_not_mem (Spaces.not_mem_letters (by decide))

theorem atBlank_tag (rest : List Char) : AtBlank ('<' :: rest) := rfl

theorem atBlank_spaces (spaces : Spaces) {rest : List Char} (blank : AtBlank rest) :
    AtBlank (spaces.letters ++ rest) := by
  have spacesBlank : Text.isBlankText spaces.letters = true := by
    apply List.all_eq_true.2
    intro character member
    have space := Spaces.isSpace_of_mem member
    simp only [isSpace, Bool.or_eq_true, beq_iff_eq] at space
    rcases space with ((equal | equal) | equal) | equal <;> subst equal <;> decide
  rw [AtBlank, List.takeWhile_append_of_pos (ne_of_mem_spaces spaces), Text.isBlankText,
    List.all_append, Bool.and_eq_true]
  exact ⟨spacesBlank, blank⟩

theorem atBlank_text (content : Content) {rest : List Char} (blank : AtBlank rest) :
    AtBlank (content.text false ++ rest) := by
  induction content with
  | last spaces => exact atBlank_spaces spaces blank
  | remark spaces comment others ih =>
      simp only [Content.text, Bool.false_eq_true, if_false, List.nil_append, List.append_assoc]
      exact atBlank_spaces spaces ih
  | unclosed spaces name others ih =>
      simp only [Content.text, List.append_assoc]
      exact atBlank_spaces spaces (atBlank_tag _)
  | leaf spaces name value others ih =>
      simp only [Content.text, List.append_assoc]
      exact atBlank_spaces spaces (atBlank_tag _)
  | block spaces name inner others innerIH ih =>
      simp only [Content.text, List.append_assoc]
      exact atBlank_spaces spaces (atBlank_tag _)

/-- The fields of content are its leaves, in whichever blocks they stand. -/
theorem fields_text (content : Content) {rest : List Char} (blank : AtBlank rest) :
    fields (content.text false ++ rest) = foundIn content.leaves ++ fields rest := by
  have skip : ∀ (spaces : Spaces) (rest : List Char),
      fields (spaces.letters ++ rest) = fields rest := fun spaces rest =>
    fields_of_all_eq (all_of_plain (Spaces.not_mem_letters (by decide)) rest)
  induction content generalizing rest with
  | last spaces => exact skip spaces rest
  | remark spaces comment others ih =>
      simp only [Content.text, Bool.false_eq_true, if_false, List.nil_append, List.append_assoc]
      rw [skip, ih blank, Content.leaves]
  | unclosed spaces name others ih =>
      simp only [Content.text, List.append_assoc]
      rw [skip, fields_openingTag name (atBlank_text others blank), ih blank, Content.leaves]
  | leaf spaces name value others ih =>
      simp only [Content.text, List.append_assoc]
      rw [skip, fields_leaf, ih blank, Content.leaves, ← List.append_assoc, ← foundIn_append,
        List.singleton_append]
  | block spaces name inner others innerIH ih =>
      simp only [Content.text, List.append_assoc]
      have ended : ∀ rest, AtBlank (name.closingTag ++ rest) := fun rest => atBlank_tag _
      rw [skip, fields_openingTag name (atBlank_text inner (ended _)), innerIH (ended _),
        fields_of_all_eq (all_closingTag name _), ih blank, Content.leaves, foundIn_append,
        List.append_assoc]

/-! ## Properties -/

/-- No end tag comes next. -/
def NoEnd (rest : List Char) : Prop :=
  ∀ after, rest.dropWhile (· != '<') ≠ '<' :: '/' :: after

theorem scan_eq_none {name : Name} {rest : List Char} (noEnd : NoEnd rest) :
    Leaf.scan (name.letters ++ '>' :: rest) = none := by
  rw [Leaf.scan, scanName_letters]
  cases isFound name with
  | false => rfl
  | true =>
      simp only [if_true]
      split
      · rename_i after shape
        exact absurd shape (noEnd after)
      · rfl

theorem noEnd_spaces (spaces : Spaces) {rest : List Char} (noEnd : NoEnd rest) :
    NoEnd (spaces.letters ++ rest) := by
  intro after
  rw [List.dropWhile_append_of_pos (ne_of_mem_spaces spaces)]
  exact noEnd after

theorem noEnd_openingTag (name : Name) (rest : List Char) : NoEnd (name.openingTag ++ rest) := by
  obtain ⟨first, others, letters, start⟩ := name.exists_cons
  have noSlash : first ≠ '/' := isNameStart_ne start (by decide)
  intro after
  rw [Name.openingTag, letters]
  simp [noSlash]

theorem noEnd_text {content : Content} (flat : content.blocks = []) :
    NoEnd (content.text false) := by
  induction content with
  | last spaces =>
      have alone := noEnd_spaces spaces (by simp [NoEnd] : NoEnd [])
      rwa [List.append_nil] at alone
  | remark spaces comment others ih =>
      simp only [Content.text, Bool.false_eq_true, if_false, List.nil_append]
      exact noEnd_spaces spaces (ih flat)
  | unclosed spaces name others ih => exact noEnd_spaces spaces (noEnd_openingTag name _)
  | leaf spaces name value others ih => exact noEnd_spaces spaces (noEnd_openingTag name _)
  | block spaces name inner others innerIH ih => cases flat

theorem pairs_of_all_eq {text rest : List Char} (same : Leaf.all text = Leaf.all rest) :
    pairs text = pairs rest := by
  rw [pairs, pairs, same]

theorem pairs_leaf (name : Name) (value : Value) (rest : List Char) :
    pairs (name.openingTag ++ (value.letters ++ (name.closingTag ++ rest))) =
      foundIn [(name, value)] ++ pairs rest := by
  rw [pairs, pairs, all_leaf, foundIn_cons]
  cases found : isFound name <;> simp [pair?_leaf, foundIn]

/-- The pairs of content without blocks are its leaves. -/
theorem pairs_text {content : Content} (flat : content.blocks = []) :
    pairs (content.text false) = foundIn content.leaves := by
  have skip : ∀ (spaces : Spaces) (rest : List Char),
      pairs (spaces.letters ++ rest) = pairs rest := fun spaces rest =>
    pairs_of_all_eq (all_of_plain (Spaces.not_mem_letters (by decide)) rest)
  induction content with
  | last spaces =>
      have alone := skip spaces []
      rw [List.append_nil] at alone
      rw [Content.text, alone, pairs, Leaf.all]
      rfl
  | remark spaces comment others ih =>
      simp only [Content.text, Bool.false_eq_true, if_false, List.nil_append]
      rw [skip, ih flat, Content.leaves]
  | unclosed spaces name others ih =>
      have later : others.blocks = [] := flat
      rw [Content.text, skip,
        pairs_of_all_eq (all_of_passed name (scan_eq_none (noEnd_text later))), ih later,
        Content.leaves]
  | leaf spaces name value others ih =>
      rw [Content.text, skip, pairs_leaf, ih flat, Content.leaves, ← foundIn_append,
        List.singleton_append]
  | block spaces name inner others innerIH ih => cases flat

/-! ## Modules -/

/-- The name of the elements that state modules. -/
def moduleName : Name := ⟨"module".toList, by decide, by decide⟩

theorem moduleName_text : moduleName.text = "module" := String.ofList_toList

/-- The values of the leaves that state modules. -/
def modulesIn (leaves : List (Name × Value)) : List String :=
  (leaves.filter fun leaf => leaf.1.text = "module").map fun leaf => leaf.2.text

theorem moduleNames_eq (text : List Char) :
    moduleNames text =
      match Text.cut moduleName.openingTag text with
      | none => []
      | some (_, rest) =>
          match scanModule rest with
          | some (name, after) => String.ofList (Text.trim name) :: moduleNames after
          | none => moduleNames rest := by
  have mark : "<module>".toList = moduleName.openingTag := by decide
  rw [moduleNames, mark]
  split
  · simp_all
  · split <;> simp_all

theorem moduleNames_skip {stretch : List Char} (skips : Skips moduleName.openingTag stretch)
    (rest : List Char) : moduleNames (stretch ++ rest) = moduleNames rest := by
  rw [moduleNames_eq, moduleNames_eq rest, skips rest]
  cases Text.cut moduleName.openingTag rest <;> rfl

/-- A module is scanned up to the tag that closes it. -/
theorem scanModule_eq_some_iff {text content after : List Char} :
    scanModule text = some (content, after) ↔
      content ≠ [] ∧ '<' ∉ content ∧ text = content ++ (moduleName.closingTag ++ after) := by
  have mark : "</module>".toList = moduleName.closingTag := by decide
  constructor
  · intro scanned
    simp only [scanModule, mark] at scanned
    split at scanned
    · cases scanned
    · rename_i nonempty
      obtain ⟨rest, closed, same⟩ := Option.map_eq_some_iff.1 scanned
      cases same
      refine ⟨by simpa using nonempty, ?_, ?_⟩
      · intro member
        cases List.mem_takeWhile_imp member
      · rw [← Text.isPrefixOf?_eq_some closed, List.takeWhile_append_dropWhile]
  · rintro ⟨nonempty, plain, rfl⟩
    have tag : AtTag (moduleName.closingTag ++ after) := moduleName.atTag_closingTag after
    have closed : moduleName.closingTag.isPrefixOf? (moduleName.closingTag ++ after) =
        some after := Text.isPrefixOf?_eq_some_iff.2 rfl
    simp only [scanModule, takeWhile_atTag plain tag, dropWhile_atTag plain tag, mark, closed]
    simp [nonempty]

theorem scanModule_leaf (value : Value) (rest : List Char) :
    scanModule (value.letters ++ (moduleName.closingTag ++ rest)) =
      some (value.letters, rest) :=
  scanModule_eq_some_iff.2 ⟨value.nonempty, Value.not_mem_letters (by decide), rfl⟩

theorem moduleNames_leaf (value : Value) (rest : List Char) :
    moduleNames (moduleName.openingTag ++ (value.letters ++ (moduleName.closingTag ++ rest))) =
      value.text :: moduleNames rest := by
  have nonempty : moduleName.openingTag ≠ [] := List.cons_ne_nil _ _
  rw [moduleNames_eq, Text.cut_append nonempty]
  simp only [scanModule_leaf, value.trimmed, Value.text]

theorem modulesIn_cons (name : Name) (value : Value) (leaves : List (Name × Value)) :
    modulesIn ((name, value) :: leaves) =
      (if name.text = "module" then [value.text] else []) ++ modulesIn leaves := by
  by_cases same : name.text = "module" <;> simp [modulesIn, same]

theorem modulesIn_append (first second : List (Name × Value)) :
    modulesIn (first ++ second) = modulesIn first ++ modulesIn second := by
  simp [modulesIn]

theorem blocks_ne_module (part : Part) : ∀ entry ∈ part.blocks, entry.1 ≠ "module" := by
  cases part <;> decide

/-- The module names of content are the values of its leaves that state modules. -/
theorem moduleNames_text {part : Part} {content : Content} (fits : part.admits content = true)
    (rest : List Char) :
    moduleNames (content.text false ++ rest) = modulesIn content.leaves ++ moduleNames rest := by
  have skipTag : ∀ {own : Name}, own.text ≠ "module" →
      ∀ rest, moduleNames (own.openingTag ++ rest) = moduleNames rest := by
    intro own apart
    exact moduleNames_skip (skips_opening_opening (moduleName_text ▸ apart))
  have skipEnd : ∀ (own : Name) rest, moduleNames (own.closingTag ++ rest) = moduleNames rest :=
    fun own => moduleNames_skip skips_opening_closing
  have skip : ∀ (spaces : Spaces) rest,
      moduleNames (spaces.letters ++ rest) = moduleNames rest := fun spaces =>
    moduleNames_skip (skips_spaces spaces)
  induction content generalizing part rest with
  | last spaces => exact skip spaces rest
  | remark spaces comment others ih =>
      simp only [Content.text, Bool.false_eq_true, if_false, List.nil_append, List.append_assoc]
      rw [skip, ih fits, Content.leaves]
  | unclosed spaces own others ih =>
      rw [Part.admits, Bool.and_eq_true] at fits
      simp only [Content.text, List.append_assoc]
      rw [skip, skipTag (Part.ne_of_isUnread fits.1 (by decide)), ih fits.2, Content.leaves]
  | leaf spaces own value others ih =>
      rw [Part.admits, Bool.and_eq_true] at fits
      simp only [Content.text, List.append_assoc]
      rw [skip, Content.leaves, modulesIn_cons]
      by_cases same : own.text = "module"
      · obtain rfl : own = moduleName := eq_of_text_eq (same.trans moduleName_text.symm)
        rw [moduleNames_leaf, ih fits.2, if_pos same]
        rfl
      · rw [skipTag same, moduleNames_skip (skips_value value), skipEnd, ih fits.2, if_neg same]
        rfl
  | block spaces own inner others innerIH ih =>
      rw [Part.admits, Bool.and_eq_true] at fits
      obtain ⟨inside, member, _, fitsInner⟩ := Part.admits_block fits.1
      simp only [Content.text, List.append_assoc]
      rw [skip, skipTag (blocks_ne_module part _ member), innerIH fitsInner, skipEnd, ih fits.2,
        Content.leaves, modulesIn_append, List.append_assoc]

end ClassAtlas.Descriptor
