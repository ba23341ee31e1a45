import ClassAtlas.Proofs.Descriptor.Entities

/-!
# Spaces written as references

A reference to an entity that is not known becomes a space, so that a descriptor in which spaces
are written as such references is read like the one with the spaces, however many there are and
however close (`read_respelled`).  What is known is told without regard to case, though, while the
XML reader knows the five names in small letters only: a reference to one of them in other letters
is kept, and then no document is read in which it stands where references are read.
-/

namespace ClassAtlas.Descriptor

open Markup

/-! ## Names of entities -/

/-- A name that an outside definition may give an entity: a letter, with letters and digits behind
it, and with a semicolon no longer than any reference looked for. -/
structure EntityName where
  first : Char
  others : List Char
  isLetter : Text.isAsciiLetter first = true
  areLettersOrDigits : others.all (fun character =>
    Text.isAsciiLetter character || Text.isAsciiDigit character) = true
  short : Text.byteLength (first :: others) < longestReference

namespace EntityName

variable (name : EntityName)

def letters : List Char := name.first :: name.others

/-- The reference to the entity, up to the text behind it. -/
def reference : List Char := '&' :: (name.letters ++ [';'])

/-- The name is none of those that are known, in whichever case. -/
def IsForeign : Prop := name.letters.map Char.toLower ∉ knownEntities

instance : Decidable name.IsForeign :=
  inferInstanceAs (Decidable (name.letters.map Char.toLower ∉ knownEntities))

theorem letter_or_digit_of_mem {character : Char} (member : character ∈ name.letters) :
    Text.isAsciiLetter character = true ∨ Text.isAsciiDigit character = true := by
  rcases List.mem_cons.1 member with rfl | later
  · exact .inl name.isLetter
  · simpa using List.all_eq_true.1 name.areLettersOrDigits character later

theorem semicolon_not_mem : ';' ∉ name.letters := by
  intro member
  have kind := name.letter_or_digit_of_mem member
  revert kind
  decide

theorem ampersand_not_mem : '&' ∉ name.letters := by
  intro member
  have kind := name.letter_or_digit_of_mem member
  revert kind
  decide

theorem head?_ne : name.letters.head? ≠ some '#' := by
  intro number
  have isLetter := name.isLetter
  rw [Option.some.inj number] at isLetter
  cases isLetter

theorem isKeptName_letters : isKeptName name.letters = true ↔ ¬name.IsForeign := by
  have noNumber : (name.letters.head? == some '#') = false := beq_eq_false_iff_ne.2 name.head?_ne
  rw [isKeptName, noNumber, Bool.or_false, List.contains_iff_mem, IsForeign, not_not]

end EntityName

/-- The second text is the first with some of its spaces written as references to the entity. -/
inductive Respelled (name : EntityName) : List Char → List Char → Prop where
  | nil : Respelled name [] []
  | keep {text spelled : List Char} (character : Char) (rest : Respelled name text spelled) :
      Respelled name (character :: text) (character :: spelled)
  | space {text spelled : List Char} (rest : Respelled name text spelled) :
      Respelled name (' ' :: text) (name.reference ++ spelled)

namespace Respelled

variable {name : EntityName}

theorem refl (text : List Char) : Respelled name text text := by
  induction text with
  | nil => exact .nil
  | cons character text ih => exact .keep character ih

theorem append {front spelledFront back spelledBack : List Char}
    (first : Respelled name front spelledFront) (second : Respelled name back spelledBack) :
    Respelled name (front ++ back) (spelledFront ++ spelledBack) := by
  induction first with
  | nil => exact second
  | keep character rest ih => exact .keep character ih
  | space rest ih =>
      rw [List.append_assoc]
      exact .space ih

end Respelled

/-! ## References that are looked for -/

/-- A reference that is not too long is taken whole. -/
theorem takeReference_of_short {name : List Char} (absent : ';' ∉ name) (rest : List Char)
    {size : Nat} (short : size + Text.byteLength name ≤ longestReference) :
    takeReference size (name ++ ';' :: rest) = (name ++ [';'], rest) := by
  induction name generalizing size with
  | nil => rfl
  | cons character name ih =>
      rw [List.mem_cons, not_or] at absent
      rw [Text.byteLength_cons, ← Nat.add_assoc] at short
      have goesOn : (character == ';' || decide (size + character.utf8Size > longestReference)) =
          false := by
        have other := absent.1
        simp only [Bool.or_eq_false_iff, beq_eq_false_iff_ne, decide_eq_false_iff_not]
        exact ⟨other ∘ Eq.symm, by omega⟩
      rw [List.cons_append, takeReference, goesOn, ih absent.2 short]
      rfl

section Respelled

variable {name : EntityName} {text spelled : List Char}

/-- A foreign reference becomes the space that it was written for. -/
theorem Respelled.withoutForeignEntities_eq (respelled : Respelled name text spelled)
    (foreign : name.IsForeign) (plain : '&' ∉ text) : withoutForeignEntities spelled = text := by
  induction respelled with
  | nil => rw [withoutForeignEntities]
  | keep character rest ih =>
      rw [List.mem_cons, not_or] at plain
      rw [withoutForeignEntities, ih plain.2]
      exact plain.1 ∘ Eq.symm
  | @space text spelled rest ih =>
      have taken : takeReference 0 (name.letters ++ [';'] ++ spelled) =
          (name.letters ++ [';'], spelled) := by
        rw [List.append_assoc, List.singleton_append]
        apply takeReference_of_short name.semicolon_not_mem
        have short := name.short
        rw [Nat.zero_add]
        exact short.le
      have ended : Text.beforeEnd? [';'] (name.letters ++ [';']) = some name.letters :=
        Text.beforeEnd?_eq_some_iff.2 rfl
      have unknown : ¬isKeptName name.letters = true := fun kept =>
        name.isKeptName_letters.1 kept foreign
      rw [EntityName.reference, List.cons_append, withoutForeignEntities, taken, settleReference,
        ended]
      simp only [unknown]
      rw [ih fun member => plain (List.mem_cons_of_mem ' ' member)]
      rfl

/-- The ampersands of the text are those of the references. -/
theorem Respelled.exists_of_ampersand (respelled : Respelled name text spelled)
    (plain : '&' ∉ text) {after : List Char} (place : '&' :: after <:+ spelled) :
    ∃ rest, after = name.letters ++ ';' :: rest := by
  induction respelled with
  | nil => cases List.suffix_nil.1 place
  | keep character rest ih =>
      rw [List.mem_cons, not_or] at plain
      rcases List.suffix_cons_iff.1 place with whole | later
      · exact absurd (List.cons.inj whole).1 plain.1
      · exact ih plain.2 later
  | @space text spelled rest ih =>
      have single : '&' ∉ name.letters ++ [';'] := by
        simpa using name.ampersand_not_mem
      rcases List.suffix_cons_iff.1 place with whole | inside
      · exact ⟨spelled, by simpa using (List.cons.inj whole).2⟩
      · rcases suffix_or_suffix inside (List.suffix_append _ spelled) with behind | later
        · obtain ⟨_, ⟨⟩, -⟩ := (Leaves.of_not_mem single spelled).inPiece after inside behind
        · exact ih (fun member => plain (List.mem_cons_of_mem ' ' member)) later

/-- A reference to one of the known names in other letters is kept. -/
theorem Respelled.withoutForeignEntities_eq_self (respelled : Respelled name text spelled)
    (variant : ¬name.IsForeign) (plain : '&' ∉ text) :
    withoutForeignEntities spelled = spelled := by
  apply Descriptor.withoutForeignEntities_eq_self
  intro after place own others shape absent _
  obtain ⟨rest, isName⟩ := respelled.exists_of_ampersand plain place
  have both := congrArg (Text.cut [';']) (shape.symm.trans isName)
  rw [Text.cut_singleton_append absent, Text.cut_singleton_append name.semicolon_not_mem] at both
  cases both
  exact name.isKeptName_letters.2 variant

/-- Where such a reference is read, there is no document. -/
theorem Respelled.isLoose_of_ofText? (respelled : Respelled name text spelled)
    (unknown : name.letters ∉ knownEntities) (plain : '&' ∉ text) {document : Node}
    (accepted : Node.ofText? spelled = some document) {after : List Char}
    (place : '&' :: after <:+ spelled) : Node.IsLoose spelled after := by
  rcases Node.refers_or_isLoose accepted place with loose | ⟨back, start, known⟩
  · exact loose
  · obtain ⟨⟨character, rest⟩, scanned⟩ := Option.isSome_iff_exists.1 known
    obtain ⟨own, rfl, -, noEnd, isName⟩ := exists_of_scanReference scanned
    obtain ⟨others, isOwn⟩ := respelled.exists_of_ampersand plain place
    obtain ⟨more, whole⟩ := start
    rw [isOwn, List.append_assoc, List.cons_append] at whole
    have both := congrArg (Text.cut [';']) whole
    rw [Text.cut_singleton_append noEnd, Text.cut_singleton_append name.semicolon_not_mem] at both
    cases both
    rcases isName with number | listed
    · exact absurd number name.head?_ne
    · exact absurd listed unknown

theorem read_eq_structural_iff {text : List Char} {descriptor : Descriptor} :
    read text = (descriptor, .structural) ↔ parse? text = some descriptor := by
  rw [read]
  cases parse? text with
  | none => simp
  | some parsed => simp

/-- A descriptor without ampersands is read as before when any of its spaces are written as
references to an entity that is foreign.  References to a known name in other letters are read in
no document: there they stand where references are not read. -/
theorem read_respelled (name : EntityName) (text spelled : List Char) (descriptor : Descriptor)
    (plain : '&' ∉ text) (isRead : read text = (descriptor, .structural))
    (unknown : name.letters ∉ knownEntities) (respelled : Respelled name text spelled) :
    (name.IsForeign → read spelled = (descriptor, .structural)) ∧
      (¬name.IsForeign → (read spelled).2 = .structural →
        ∀ after, '&' :: after <:+ spelled → Node.IsLoose spelled after) := by
  constructor
  · intro foreign
    have same : withoutForeignEntities text = text :=
      Descriptor.withoutForeignEntities_eq_self fun after place =>
        absurd (place.mem List.mem_cons_self) plain
    rw [read_eq_structural_iff, parse?] at isRead ⊢
    rwa [respelled.withoutForeignEntities_eq foreign plain, ← same]
  · intro variant isStructural after place
    have parsed := read_eq_structural_iff.1 (Prod.ext rfl isStructural)
    rw [parse?, respelled.withoutForeignEntities_eq_self variant plain] at parsed
    obtain ⟨document, accepted, -⟩ := Option.bind_eq_some_iff.1 parsed
    exact respelled.isLoose_of_ofText? unknown plain accepted place

end Respelled

/-! ### Spaces behind a group -/

namespace Spaced

/-- A descriptor with this text behind the group. -/
def textWith (spaces : List Char) : List Char :=
  "<project><groupId>a".toList ++
    (spaces ++ "</groupId><artifactId>b</artifactId></project>".toList)

/-- What that descriptor states. -/
def descriptor : Descriptor where
  group := some "a"
  artifact := some "b"

def nbsp : EntityName where
  first := 'n'
  others := "bsp".toList
  isLetter := by decide
  areLettersOrDigits := by decide
  short := by decide

/-- The name of the less-than sign in capital letters. -/
def capitals : EntityName where
  first := 'L'
  others := "T".toList
  isLetter := by decide
  areLettersOrDigits := by decide
  short := by decide

theorem read_spaces : read (textWith "  ".toList) = (descriptor, .structural) := by
  decide +kernel

end Spaced

/-- Two references close to each other, in the place of two spaces. -/
theorem read_respelled_spaced :
    '&' ∉ Spaced.textWith "  ".toList ∧
      read (Spaced.textWith "  ".toList) = (Spaced.descriptor, .structural) ∧
      Spaced.nbsp.letters ∉ knownEntities ∧ Spaced.nbsp.IsForeign ∧
      read (Spaced.textWith "&nbsp;&nbsp;".toList) = (Spaced.descriptor, .structural) := by
  have plain : '&' ∉ Spaced.textWith "  ".toList := by decide
  have unknown : Spaced.nbsp.letters ∉ knownEntities := by decide
  have foreign : Spaced.nbsp.IsForeign := by decide
  have respelled : Respelled Spaced.nbsp (Spaced.textWith "  ".toList)
      (Spaced.textWith "&nbsp;&nbsp;".toList) :=
    (Respelled.refl _).append ((Respelled.space (.space .nil)).append (Respelled.refl _))
  exact ⟨plain, Spaced.read_spaces, unknown, foreign,
    (read_respelled Spaced.nbsp _ _ _ plain Spaced.read_spaces unknown respelled).1 foreign⟩

/-- A known name in capital letters is foreign to the reader, and no longer a space. -/
theorem not_read_respelled :
    ¬∀ name : EntityName, name.letters ∉ knownEntities →
      read (Spaced.textWith (name.reference ++ name.reference)) =
        read (Spaced.textWith "  ".toList) := by
  intro always
  have same := always Spaced.capitals (by decide)
  revert same
  decide +kernel

end ClassAtlas.Descriptor
