import ClassAtlas.Proofs.Descriptor.Fields
import ClassAtlas.Proofs.Descriptor.Leaves
import ClassAtlas.Proofs.Text.Words

/-!
# Names of modules as they are read

A field that is read is never blank, and neither is the name of a module that is read off the tree
of a document.  Reading by pattern trims the name of a module as well, but keeps it when nothing
is left of it.  So a name can be empty, and it is exactly where the tags of a module have only
blanks between them (`read_isTrimmed`).
-/

namespace ClassAtlas.Descriptor

open Markup

/-! ## Modules of a text -/

/-- The content stands in the text between the tags of a module. -/
structure HoldsModule (text content : List Char) : Prop where
  nonempty : content ≠ []
  plain : '<' ∉ content
  occurs : moduleName.openingTag ++ (content ++ moduleName.closingTag) <:+: text

section Modules

variable {text before rest after content : List Char}

/-- The first tag opens a module, or all modules stand behind it. -/
theorem holdsModule_iff_of_cut
    (opened : Text.cut moduleName.openingTag text = some (before, rest)) :
    HoldsModule text content ↔
      (∃ after, scanModule rest = some (content, after)) ∨ HoldsModule rest content := by
  have occurs : moduleName.openingTag ++ (content ++ moduleName.closingTag) <:+: text ↔
      content ++ moduleName.closingTag <+: rest ∨
        moduleName.openingTag ++ (content ++ moduleName.closingTag) <:+: rest :=
    Text.infix_iff_of_cut (by decide) opened
  constructor
  · intro holds
    rcases occurs.1 holds.occurs with ⟨after, shape⟩ | later
    · left
      refine ⟨after, scanModule_eq_some_iff.2 ⟨holds.nonempty, holds.plain, ?_⟩⟩
      rw [← shape, List.append_assoc]
    · exact .inr ⟨holds.nonempty, holds.plain, later⟩
  · rintro (⟨after, scanned⟩ | holds)
    · obtain ⟨nonempty, plain, shape⟩ := scanModule_eq_some_iff.1 scanned
      refine ⟨nonempty, plain, occurs.2 (.inl ⟨after, ?_⟩)⟩
      rw [shape, List.append_assoc]
    · exact ⟨holds.nonempty, holds.plain, occurs.2 (.inr holds.occurs)⟩

/-- No other module begins before the end of one. -/
theorem holdsModule_iff_of_scanModule {own : List Char}
    (scanned : scanModule rest = some (own, after)) :
    HoldsModule rest content ↔ HoldsModule after content := by
  obtain ⟨-, plain, rfl⟩ := scanModule_eq_some_iff.1 scanned
  constructor
  · intro holds
    refine ⟨holds.nonempty, holds.plain, ?_⟩
    rcases List.infix_cons_iff.1 (Text.infix_of_infix_append plain holds.occurs) with start | later
    · obtain ⟨_, whole⟩ := start
      cases whole
    · exact Text.infix_of_infix_append (by decide) later
  · intro holds
    refine ⟨holds.nonempty, holds.plain, holds.occurs.trans ?_⟩
    exact ((List.suffix_append _ after).trans (List.suffix_append own _)).isInfix

/-- The names of modules are the trimmed contents of their tags. -/
theorem mem_moduleNames_iff {name : String} :
    name ∈ moduleNames text ↔
      ∃ content, HoldsModule text content ∧ name = String.ofList (Text.trim content) := by
  have mark : "<module>".toList = moduleName.openingTag := by decide
  fun_induction moduleNames text with
  | case1 text missing =>
      rw [mark] at missing
      constructor
      · rintro ⟨⟩
      · rintro ⟨content, holds, -⟩
        refine absurd ?_ (Text.not_infix_of_cut (List.cons_ne_nil _ _) missing)
        exact (List.prefix_append _ _).isInfix.trans holds.occurs
  | case2 text before rest opened own after scanned ih =>
      rw [mark] at opened
      have holds (content : List Char) :
          HoldsModule text content ↔ content = own ∨ HoldsModule after content := by
        rw [holdsModule_iff_of_cut opened, holdsModule_iff_of_scanModule scanned, scanned]
        simp [eq_comm]
      simp only [List.mem_cons, ih, holds, or_and_right, exists_or, exists_eq_left]
  | case3 text before rest opened missing ih =>
      rw [mark] at opened
      have holds (content : List Char) :
          HoldsModule text content ↔ HoldsModule rest content := by
        rw [holdsModule_iff_of_cut opened, missing]
        simp
      simp only [ih, holds]

/-- A name is empty where only blanks stand between the tags. -/
theorem empty_mem_moduleNames_iff :
    "" ∈ moduleNames text ↔
      ∃ blanks, HoldsModule text blanks ∧ Text.isBlankText blanks = true := by
  rw [mem_moduleNames_iff]
  refine exists_congr fun content => and_congr_right fun _ => ?_
  constructor
  · intro empty
    rw [Text.isBlankText, List.all_eq_true]
    intro character member
    cases solid : Text.isBlank character with
    | true => rfl
    | false =>
        have kept := Text.mem_trim member solid
        rw [← String.toList_ofList (l := Text.trim content), ← empty] at kept
        cases kept
  · intro blank
    rw [Text.trim_of_blank blank]

end Modules

/-! ## Both ways of reading -/

/-- The text in which a reader by pattern looks for the identity and the modules of the project. -/
def identityText (text : List Char) : List Char :=
  innerBlocks.foldl (fun text block => block.remove text)
    ((Block.tagged "dependencyManagement").remove (Block.comment.remove text))

theorem modules_scrape (text : List Char) :
    (scrape text).modules = moduleNames (identityText text) := rfl

theorem IsStated.isTrimmed {text : String} (stated : IsStated text) :
    Text.IsTrimmed text.toList := by
  obtain ⟨-, raw, rfl⟩ := stated
  rw [Text.trimmed_toList]
  exact Text.isTrimmed_trim raw.toList

/-- The modules of a document are stated like its fields. -/
theorem isStated_modules_ofProject (project : Node) :
    ∀ name ∈ (ofProject project).modules, IsStated name := by
  intro name member
  obtain ⟨element, -, isName⟩ := List.mem_filterMap.1 member
  obtain ⟨taken, nonempty⟩ := Option.filter_eq_some_iff.1 isName
  obtain ⟨raw, -, rfl⟩ := Option.map_eq_some_iff.1 taken
  refine ⟨?_, raw, rfl⟩
  intro isEmpty
  rw [isEmpty] at nonempty
  cases nonempty

theorem exists_project_of_parse? {text : List Char} {descriptor : Descriptor}
    (parsed : parse? text = some descriptor) : ∃ project, descriptor = ofProject project := by
  obtain ⟨document, -, isDescriptor⟩ := Option.bind_eq_some_iff.1 parsed
  obtain ⟨project, -, rfl⟩ := Option.map_eq_some_iff.1 isDescriptor
  exact ⟨project, rfl⟩

/-- What is there of a descriptor is trimmed, in its fields and in the names of its modules, and
not empty, except for the name of a module that a reader by pattern finds where the tags have
blanks between them. -/
theorem read_isTrimmed (text : List Char) :
    (∀ field ∈ (read text).1.allFields, ∀ value ∈ field,
      value ≠ "" ∧ Text.IsTrimmed value.toList) ∧
    (∀ name ∈ (read text).1.modules, Text.IsTrimmed name.toList) ∧
    ("" ∈ (read text).1.modules ↔ (read text).2 = .scraped ∧
      ∃ blanks, HoldsModule (identityText text) blanks ∧ Text.isBlankText blanks = true) := by
  refine ⟨?_, ?_⟩
  · intro field member value isValue
    have stated := areStated_read text field member value isValue
    exact ⟨stated.1, stated.isTrimmed⟩
  · rw [read]
    cases parsed : parse? text with
    | some descriptor =>
        obtain ⟨project, rfl⟩ := exists_project_of_parse? parsed
        have stated := isStated_modules_ofProject project
        refine ⟨fun name member => (stated name member).isTrimmed, ?_⟩
        constructor
        · intro member
          exact absurd rfl (stated "" member).1
        · rintro ⟨⟨⟩, -⟩
    | none =>
        simp only [modules_scrape, empty_mem_moduleNames_iff, true_and, and_true]
        intro name member
        obtain ⟨content, -, rfl⟩ := mem_moduleNames_iff.1 member
        rw [String.toList_ofList]
        exact Text.isTrimmed_trim content

/-- A text that is no document can name a module by blanks. -/
theorem not_read_nonempty :
    ¬∀ text, (∀ field ∈ (read text).1.allFields, ∀ value ∈ field,
        value ≠ "" ∧ Text.IsTrimmed value.toList) ∧
      ∀ name ∈ (read text).1.modules, name ≠ "" ∧ Text.IsTrimmed name.toList := by
  intro always
  have listed : (read ("<project><groupId>g</groupId><artifactId>a</artifactId>".toList ++
      "<modules><module> </module></modules>".toList)).1.modules = [""] := by decide +kernel
  exact ((always _).2 "" (listed ▸ List.mem_cons_self)).1 rfl

end ClassAtlas.Descriptor
