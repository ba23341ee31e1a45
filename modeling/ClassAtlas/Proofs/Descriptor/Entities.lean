import ClassAtlas.Descriptor.Scrape
import ClassAtlas.Proofs.Markup.Reference

/-!
# Entities of well-formed descriptors

The references of a document that can be read as it stands are all known, and known references
are kept.  Only an ampersand that is no reference, in a remark, in a section without
references or in the declaration, can be taken for one.  Where none of them is, a descriptor
is read as the tree of its text (`read_of_wellFormed`).
-/

namespace ClassAtlas.Descriptor

open Markup

/-! ## What is spared -/

/-- An ampersand with this text behind it is kept: the name up to the next semicolon is known, or
longer than any that is looked for. -/
def IsSpared (after : List Char) : Prop :=
  ∀ name rest, after = name ++ ';' :: rest → ';' ∉ name →
    Text.byteLength name ≤ longestReference → isKeptName name = true

theorem isSpared_iff {after : List Char} :
    IsSpared after ↔ ∀ parts ∈ Text.cut [';'] after,
      Text.byteLength parts.1 ≤ longestReference → isKeptName parts.1 = true := by
  constructor
  · rintro spared ⟨name, rest⟩ found
    have absent : ';' ∉ name := by
      intro member
      have none := Text.not_infix_before_of_cut (List.cons_ne_nil _ _) found
      rw [List.dropLast_singleton, List.append_nil] at none
      obtain ⟨front, back, whole⟩ := List.append_of_mem member
      exact none ⟨front, back, by rw [whole]; simp⟩
    have whole := Text.cut_eq_some found
    rw [List.append_assoc, List.singleton_append] at whole
    exact spared name rest whole absent
  · intro spared name rest whole absent
    rw [whole, Text.cut_singleton_append absent] at spared
    exact spared (name, rest) rfl

instance (after : List Char) : Decidable (IsSpared after) :=
  decidable_of_iff _ isSpared_iff.symm

theorem takeReference_append (size : Nat) (text : List Char) :
    (takeReference size text).1 ++ (takeReference size text).2 = text := by
  induction text generalizing size with
  | nil => rfl
  | cons character rest ih =>
      rw [takeReference]
      split
      · rfl
      · exact congrArg (character :: ·) (ih (size + character.utf8Size))

/-- What is taken up to a semicolon holds no other one and is not too long. -/
theorem of_takeReference {size : Nat} (short : size ≤ longestReference)
    {text name : List Char} (taken : (takeReference size text).1 = name ++ [';']) :
    ';' ∉ name ∧ size + Text.byteLength name ≤ longestReference := by
  induction text generalizing size name with
  | nil => simp [takeReference] at taken
  | cons character rest ih =>
      rw [takeReference] at taken
      split at taken
      · cases name with
        | nil => exact ⟨List.not_mem_nil, short⟩
        | cons first others => simp at taken
      · rename_i goesOn
        rw [Bool.or_eq_true, beq_iff_eq, decide_eq_true_eq, not_or, Nat.not_lt] at goesOn
        cases name with
        | nil =>
            simp only [List.nil_append, List.cons.injEq] at taken
            exact absurd taken.1 goesOn.1
        | cons first others =>
            simp only [List.cons_append, List.cons.injEq] at taken
            obtain ⟨rfl, taken⟩ := taken
            obtain ⟨absent, fits⟩ := ih goesOn.2 taken
            rw [List.mem_cons, not_or, Text.byteLength_cons, ← Nat.add_assoc]
            exact ⟨⟨goesOn.1 ∘ Eq.symm, absent⟩, fits⟩

/-- Nothing becomes of an ampersand that is spared. -/
theorem settleReference_of_isSpared {after : List Char} (spared : IsSpared after) :
    settleReference (takeReference 0 after).1 = '&' :: (takeReference 0 after).1 := by
  rw [settleReference]
  cases ended : Text.beforeEnd? [';'] (takeReference 0 after).1 with
  | none => rfl
  | some name =>
      have taken := Text.beforeEnd?_eq_some_iff.1 ended
      obtain ⟨absent, fits⟩ := of_takeReference (Nat.zero_le _) taken
      have whole := takeReference_append 0 after
      rw [taken, List.append_assoc, List.singleton_append] at whole
      rw [Nat.zero_add] at fits
      exact if_pos (spared name _ whole.symm absent fits)

/-- A text is left as it is when all its ampersands are spared. -/
theorem withoutForeignEntities_eq_self {text : List Char}
    (spared : ∀ after, '&' :: after <:+ text → IsSpared after) :
    withoutForeignEntities text = text := by
  fun_induction withoutForeignEntities text with
  | case1 => rfl
  | case2 rest ih =>
      have whole := takeReference_append 0 rest
      have later : (takeReference 0 rest).2 <:+ '&' :: rest :=
        ⟨'&' :: (takeReference 0 rest).1, by rw [List.cons_append, whole]⟩
      rw [settleReference_of_isSpared (spared rest List.suffix_rfl),
        ih fun after place => spared after (place.trans later), List.cons_append, whole]
  | case3 character rest other ih =>
      rw [ih fun after place => spared after (place.trans (List.suffix_cons character rest))]

/-! ## Documents -/

theorem isKeptName_of_isReferenceName {name : List Char} (known : IsReferenceName name) :
    isKeptName name = true := by
  rcases known with number | listed
  · simp [isKeptName, number]
  · have each : ∀ name ∈ ["lt".toList, "gt".toList, "amp".toList, "quot".toList,
        "apos".toList], isKeptName name = true := by decide
    exact each name listed

/-- The ampersand of a known reference is kept. -/
theorem isSpared_of_scanReference {back after : List Char} (start : back <+: after)
    (known : (scanReference back).isSome = true) : IsSpared after := by
  obtain ⟨⟨character, rest⟩, scanned⟩ := Option.isSome_iff_exists.1 known
  obtain ⟨own, rfl, -, noEnd, isName⟩ := exists_of_scanReference scanned
  obtain ⟨more, rfl⟩ := start
  intro name others shape absent _
  rw [List.append_assoc, List.cons_append] at shape
  have both := congrArg (Text.cut [';']) shape
  rw [Text.cut_singleton_append noEnd, Text.cut_singleton_append absent] at both
  cases both
  exact isKeptName_of_isReferenceName isName

/-- A document is left as it is when its loose ampersands are spared. -/
theorem withoutForeignEntities_of_wellFormed {text : List Char} {document : Node}
    (accepted : Node.ofText? text = some document)
    (spared : ∀ after, Node.IsLoose text after → IsSpared after) :
    withoutForeignEntities text = text := by
  apply withoutForeignEntities_eq_self
  intro after place
  rcases Node.refers_or_isLoose accepted place with loose | ⟨back, start, known⟩
  · exact spared after loose
  · exact isSpared_of_scanReference start known

/-- The loose ampersands are spared where all are. -/
theorem isSpared_of_tails {text after : List Char}
    (each : ∀ tail ∈ text.tails, tail.head? = some '&' → IsSpared tail.tail)
    (loose : Node.IsLoose text after) : IsSpared after :=
  each ('&' :: after) ((List.mem_tails _ _).2 loose.place) rfl

/-- A document that is read as it stands and has a project is read as the tree of its text, when
no ampersand in a remark, in a section without references or in the declaration is followed by
what looks like the name of a foreign entity. -/
theorem read_of_wellFormed (text : List Char) (document : Node) (descriptor : Descriptor)
    (accepted : Node.ofText? text = some document)
    (isProject : ofDocument? document = some descriptor)
    (spared : ∀ after, Node.IsLoose text after → IsSpared after) :
    withoutForeignEntities text = text ∧ read text = (descriptor, .structural) := by
  have unchanged := withoutForeignEntities_of_wellFormed accepted spared
  have parsed : parse? text = some descriptor := by
    rw [parse?, unchanged, accepted]
    exact isProject
  refine ⟨unchanged, ?_⟩
  rw [read, parsed]

/-! ### Sections and remarks with ampersands -/

namespace Ampersands

/-- A descriptor with a property that is written as a section without references, and a remark. -/
def textWith (value : String) : List Char :=
  ("<project><artifactId>a</artifactId><properties><url><![CDATA[" ++ value ++
    "]]></url></properties><!-- R & D --></project>").toList

/-- What the tree of that text states. -/
def descriptorWith (value : String) : Descriptor where
  artifact := some "a"
  properties := .ofList [("url", value)]

theorem exists_document (value : String)
    (isRead : (Node.ofText? (textWith value)).bind ofDocument? = some (descriptorWith value)) :
    ∃ document, Node.ofText? (textWith value) = some document ∧
      ofDocument? document = some (descriptorWith value) :=
  Option.bind_eq_some_iff.1 isRead

end Ampersands

theorem read_of_wellFormed_spared :
    read (Ampersands.textWith "x&lt;y & z") =
      (Ampersands.descriptorWith "x&lt;y & z", .structural) := by
  obtain ⟨document, accepted, isProject⟩ :=
    Ampersands.exists_document "x&lt;y & z" (by decide +kernel)
  have spared : ∀ after, Node.IsLoose (Ampersands.textWith "x&lt;y & z") after →
      IsSpared after := fun after => isSpared_of_tails (by decide +kernel)
  exact (read_of_wellFormed _ document _ accepted isProject spared).2

/-- An ampersand in a section without references can be taken for a reference, and then the
descriptor is not read as the tree of its text. -/
theorem not_read_as_wellFormed :
    ¬∀ (text : List Char) (document : Node) (descriptor : Descriptor),
      Node.ofText? text = some document → ofDocument? document = some descriptor →
        read text = (descriptor, .structural) := by
  intro always
  obtain ⟨document, accepted, isProject⟩ := Ampersands.exists_document "x&y;z" (by decide +kernel)
  have isRead := always _ document _ accepted isProject
  revert isRead
  decide +kernel

end ClassAtlas.Descriptor
