import ClassAtlas.Proofs.Transcript.Pattern

/-!
# What a transcript is made of

A transcript is printed line by line: marks of modules, what is being built, goals, listed
dependencies, and lines of other kinds (`Item`).  Each line may be coloured anywhere and ends
in a line feed, with or without a carriage return (`Printed`).  What the items state is told
without a look at how they are printed (`stated`).
-/

namespace ClassAtlas.Transcript

/-! ## Items -/

/-- No escape character and no line feed stands in the text. -/
structure IsClean (text : List Char) : Prop where
  escape : '\x1b' ∉ text
  newline : '\n' ∉ text

/-- A field of an identity or of coordinates. -/
structure Field where
  text : String
  isField : IsField text.toList

/-- The name of what is being built. -/
structure Name where
  text : String
  isName : IsName text.toList
  isClean : IsClean text.toList

/-- A text without a meaning of its own within a line. -/
structure Phrase where
  text : String
  isClean : IsClean text.toList

/-- What is said about the module that a dependency becomes. -/
structure Remark extends Phrase where
  notOptional : ¬"(optional)".toList <:+: text.toList

/-- A line that is no message. -/
structure Noise extends Phrase where
  noLevel : ¬level <+: text.toList

/-- A dependency as it is listed. -/
structure Listing where
  group : Field
  artifact : Field
  type : Field
  classifier : Option Field
  version : Field
  scope : Scope
  optional : Bool
  remark : Option Remark

/-- What a line of a transcript is about. -/
inductive Item where
  | moduleMark (before after : Nat) (group artifact : Field)
  | building (name : Name) (version : Field) (count : Option (Nat × Nat))
  | goal (plugin : Phrase) (artifact : Field)
  | dependency (listing : Listing)
  | noise (text : Noise)

/-- A number of hyphens. -/
def hyphens (count : Nat) : String := String.ofList (List.replicate count '-')

/-- The place of a module among those that are built. -/
def countText : Option (Nat × Nat) → String
  | none => ""
  | some (position, total) => " [" ++ toString position ++ "/" ++ toString total ++ "]"

/-- The coordinates that are listed. -/
def Listing.fields (listing : Listing) : List String :=
  [listing.group.text, listing.artifact.text, listing.type.text] ++
    (listing.classifier.map Field.text).toList ++ [listing.version.text, listing.scope.name]

/-- What is listed after the coordinates. -/
def Listing.tail (listing : Listing) : String :=
  (if listing.optional then " (optional)" else "") ++
    (listing.remark.map fun remark => " -- module " ++ remark.text).getD ""

/-- The line before it is coloured. -/
def Item.text : Item → String
  | .moduleMark before after group artifact =>
      "[INFO] " ++ hyphens before ++ "< " ++ group.text ++ ":" ++ artifact.text ++ " >" ++
        hyphens after
  | .building name version count =>
      "[INFO] Building " ++ name.text ++ " " ++ version.text ++ countText count
  | .goal plugin artifact => "[INFO] --- " ++ plugin.text ++ " @ " ++ artifact.text ++ " ---"
  | .dependency listing => "[INFO]    " ++ ":".intercalate listing.fields ++ listing.tail
  | .noise other => other.text

/-! ## What items state -/

/-- The dependency that is listed. -/
def Listing.dependency (listing : Listing) : Dependency where
  group := listing.group.text
  artifact := listing.artifact.text
  version := listing.version.text
  classifier := listing.classifier.map Field.text
  type := listing.type.text
  scope := listing.scope
  optional := listing.optional

namespace Item

/-- The group and the artifact that a module mark gives. -/
def marked? : Item → Option (String × String)
  | .moduleMark _ _ group artifact => some (group.text, artifact.text)
  | _ => none

/-- The artifact of which a goal is run. -/
def goalArtifact? : Item → Option String
  | .goal _ artifact => some artifact.text
  | _ => none

/-- The version of what is built. -/
def builtVersion? : Item → Option String
  | .building _ version _ => some version.text
  | _ => none

/-- The dependency that is listed. -/
def dependency? : Item → Option Dependency
  | .dependency listing => some listing.dependency
  | _ => none

end Item

/-- What the items of a transcript state: the identity of the first module mark, or without
one the artifact of the first goal; the version of what is built first; and all dependencies
that are listed, in order. -/
def stated (items : List Item) : Transcript where
  group := (items.findSome? Item.marked?).map Prod.fst
  artifact := ((items.findSome? Item.marked?).map Prod.snd).or
    (items.findSome? Item.goalArtifact?)
  version := items.findSome? Item.builtVersion?
  dependencies := items.filterMap Item.dependency?

/-! ## Printed lines -/

/-- A line as it is printed: an item, coloured, and ended with or without a carriage return
before the line feed. -/
structure Printed where
  item : Item
  painted : List Char
  paint : Painted item.text.toList painted
  returns : Bool

/-- The line before its line feed. -/
def Printed.body (line : Printed) : List Char :=
  line.painted ++ if line.returns then ['\r'] else []

/-- What is printed, one line after another. -/
def output (lines : List Printed) : String :=
  String.ofList (lines.flatMap fun line => line.body ++ ['\n'])

/-! ## The characters of a line -/

section Characters

variable (version artifact : Field) (count : Option (Nat × Nat))

theorem toList_moduleMark (before after : Nat) (group artifact : Field) :
    (Item.moduleMark before after group artifact).text.toList = level ++ ' ' ::
      (List.replicate before '-' ++ '<' :: ' ' :: (group.text.toList ++ ':' ::
        (artifact.text.toList ++ ' ' :: '>' :: List.replicate after '-'))) := by
  unfold Item.text
  simp only [hyphens, String.toList_append, String.toList_ofList, List.append_assoc]
  rfl

theorem toList_building (name : Name) :
    (Item.building name version count).text.toList = level ++ ' ' :: ("Building".toList ++ ' ' ::
      (name.text.toList ++ ' ' :: (version.text.toList ++ (countText count).toList))) := by
  unfold Item.text
  simp only [String.toList_append, List.append_assoc]
  rfl

theorem toList_goal (plugin : Phrase) :
    (Item.goal plugin artifact).text.toList = level ++ ' ' ::
      ("---".toList ++ goalText plugin.text.toList artifact.text.toList) := by
  unfold Item.text
  simp only [String.toList_append, List.append_assoc]
  rfl

/-- The coordinates that are listed, as characters. -/
def Listing.letters (listing : Listing) : List (List Char) := listing.fields.map String.toList

theorem toList_dependency (listing : Listing) :
    (Item.dependency listing).text.toList = level ++ ' ' :: ("   ".toList ++
      (coordinates listing.letters ++ listing.tail.toList)) := by
  unfold Item.text
  rw [String.toList_append, String.toList_append, String.toList_intercalate, List.append_assoc]
  rfl

end Characters

/-! ## Items are clean -/

namespace IsClean

instance (text : List Char) : Decidable (IsClean text) :=
  decidable_of_iff ('\x1b' ∉ text ∧ '\n' ∉ text)
    ⟨fun clean => ⟨clean.1, clean.2⟩, fun clean => ⟨clean.escape, clean.newline⟩⟩

theorem append {left right : List Char} (cleanLeft : IsClean left) (cleanRight : IsClean right) :
    IsClean (left ++ right) := by
  constructor
  · rw [List.mem_append, not_or]
    exact ⟨cleanLeft.escape, cleanRight.escape⟩
  · rw [List.mem_append, not_or]
    exact ⟨cleanLeft.newline, cleanRight.newline⟩

theorem of_codes {text : List Char} (printable : ∀ character ∈ text, 32 ≤ character.toNat) :
    IsClean text := by
  constructor
  · intro member
    exact absurd (printable _ member) (by decide)
  · intro member
    exact absurd (printable _ member) (by decide)

end IsClean

theorem IsField.isClean {text : List Char} (field : IsField text) : IsClean text := by
  apply IsClean.of_codes
  intro character member
  have code := code_of_isCoordinate (field.plain character member)
  omega

theorem code_of_mem_toString {number : Nat} {character : Char}
    (member : character ∈ (toString number).toList) :
    48 ≤ character.toNat ∧ character.toNat ≤ 57 := by
  rw [Nat.toString_eq_repr, Nat.toList_repr] at member
  have digit := Nat.isDigit_of_mem_toDigits (by decide) (by decide) member
  simpa [Char.isDigit, UInt32.le_iff_toNat_le] using digit

theorem isDigit_of_mem_toString {number : Nat} {character : Char}
    (member : character ∈ (toString number).toList) : Text.isDigit character = true := by
  rw [Text.isDigit, Text.inRanges, List.any_eq_true]
  refine ⟨(48, 57), List.mem_cons_self, ?_⟩
  simpa using code_of_mem_toString member

theorem isNumber_toString (number : Nat) : IsNumber (toString number).toList := by
  constructor
  · rw [Nat.toString_eq_repr, Nat.toList_repr]
    exact Nat.toDigits_ne_nil
  · exact fun character member => isDigit_of_mem_toString member

theorem isClean_toString (number : Nat) : IsClean (toString number).toList := by
  apply IsClean.of_codes
  intro character member
  have code := code_of_mem_toString member
  omega

theorem isClean_countText (count : Option (Nat × Nat)) : IsClean (countText count).toList := by
  cases count with
  | none => exact (by decide : IsClean "".toList)
  | some count =>
      obtain ⟨position, total⟩ := count
      simp only [countText, String.toList_append]
      exact (((IsClean.append (by decide) (isClean_toString position)).append (by decide)).append
        (isClean_toString total)).append (by decide)

theorem isClean_tail (listing : Listing) : IsClean listing.tail.toList := by
  have mark : IsClean (if listing.optional then " (optional)" else "").toList := by
    cases listing.optional <;> decide
  rw [Listing.tail, String.toList_append]
  apply mark.append
  cases listing.remark with
  | none => exact (by decide : IsClean "".toList)
  | some remark =>
      simp only [Option.map_some, Option.getD_some, String.toList_append]
      exact IsClean.append (by decide) remark.isClean

namespace Listing

theorem isField_scope (scope : Scope) : IsField scope.name.toList := by
  constructor
  · cases scope <;> decide
  · apply List.all_eq_true.1
    cases scope <;> decide

theorem isField_letters (listing : Listing) : ∀ letters ∈ listing.letters, IsField letters := by
  intro letters member
  simp only [Listing.letters, Listing.fields, List.mem_map, List.mem_append, List.mem_cons,
    List.not_mem_nil, or_false, Option.mem_toList, Option.map_eq_some_iff] at member
  rcases member with ⟨text, ((rfl | rfl | rfl) | ⟨classifier, -, rfl⟩) | rfl | rfl, rfl⟩
  · exact listing.group.isField
  · exact listing.artifact.isField
  · exact listing.type.isField
  · exact classifier.isField
  · exact listing.version.isField
  · exact isField_scope listing.scope

end Listing

/-- No escape character and no line feed stands in a line before it is coloured. -/
theorem Item.isClean (item : Item) : IsClean item.text.toList := by
  cases item with
  | moduleMark before after group artifact =>
      have dashes : ∀ count, IsClean (hyphens count).toList := by
        intro count
        apply IsClean.of_codes
        intro character member
        rw [hyphens, String.toList_ofList] at member
        rw [List.eq_of_mem_replicate member]
        decide
      unfold Item.text
      simp only [String.toList_append]
      exact ((((((IsClean.append (by decide) (dashes before)).append (by decide)).append
        group.isField.isClean).append (by decide)).append artifact.isField.isClean).append
          (by decide)).append (dashes after)
  | building name version count =>
      unfold Item.text
      simp only [String.toList_append]
      exact (((IsClean.append (by decide) name.isClean).append (by decide)).append
        version.isField.isClean).append (isClean_countText count)
  | goal plugin artifact =>
      unfold Item.text
      simp only [String.toList_append]
      exact (((IsClean.append (by decide) plugin.isClean).append (by decide)).append
        artifact.isField.isClean).append (by decide)
  | dependency listing =>
      have listed : IsClean (coordinates listing.letters) := by
        apply IsClean.of_codes
        intro character member
        have code := code_of_mem_coordinates listing.isField_letters member
        omega
      have margin : IsClean (level ++ ' ' :: "   ".toList) := by decide
      have whole := margin.append (listed.append (isClean_tail listing))
      rw [toList_dependency]
      simpa using whole
  | noise text => exact text.isClean

end ClassAtlas.Transcript
