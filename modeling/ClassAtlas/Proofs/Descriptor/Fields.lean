import ClassAtlas.Descriptor.Scrape
import ClassAtlas.Proofs.Text.Blank
import Mathlib

/-!
# Fields as they are read

Both ways of reading a descriptor trim a field and take it as left out when nothing is
left of it.  So a field that is there is the trimmed form of some text and not empty
(`areStated_read`), which the values of properties need not be.
-/

namespace ClassAtlas.Descriptor

open Markup (Node)

/-- The trimmed form of some text, and not empty. -/
def IsStated (text : String) : Prop :=
  text ≠ "" ∧ ∃ raw, text = Text.trimmed raw

theorem IsStated.not_blank {text : String} (stated : IsStated text) :
    ¬Text.isBlankString text := by
  obtain ⟨nonempty, raw, rfl⟩ := stated
  intro blank
  have nothing : Text.trim raw.toList ≠ [] := by
    intro none
    apply nonempty
    rw [Text.trimmed, none]
  -- Every character of the text that is no blank is still there.
  have rawBlank : Text.isBlankText raw.toList = true := by
    rw [Text.isBlankText, List.all_eq_true]
    intro character member
    cases solid : Text.isBlank character with
    | true => rfl
    | false =>
        rw [Text.isBlankString, Text.trimmed_toList, Text.isBlankText, List.all_eq_true] at blank
        have isBlank := blank character (Text.mem_trim member solid)
        rw [solid] at isBlank
        cases isBlank
  exact nothing (Text.trim_of_blank rawBlank)

/-- Whatever fields of this kind there are, they are stated. -/
def AreStated (fields : List (Option String)) : Prop :=
  ∀ field ∈ fields, ∀ text ∈ field, IsStated text

/-- The texts that a declaration may hold. -/
def Declared.fields (declared : Declared) : List (Option String) :=
  [declared.group, declared.artifact, declared.version, declared.scope, declared.classifier,
    declared.type, declared.systemPath]

/-- The texts that name a parent. -/
def Parent.fields (parent : Parent) : List (Option String) :=
  [parent.group, parent.artifact, parent.version]

/-- The texts of a descriptor apart from its properties and child modules. -/
def allFields (descriptor : Descriptor) : List (Option String) :=
  [descriptor.group, descriptor.artifact, descriptor.version, descriptor.packaging] ++
    descriptor.parent.toList.flatMap Parent.fields ++
    descriptor.dependencies.flatMap Declared.fields

section Reading

variable {descriptor : Descriptor}

/-- The fields of a descriptor are stated when its own are, and those of the parent and of
every dependency. -/
theorem areStated_allFields_iff :
    AreStated descriptor.allFields ↔
      AreStated [descriptor.group, descriptor.artifact, descriptor.version,
        descriptor.packaging] ∧
      (∀ parent ∈ descriptor.parent, AreStated parent.fields) ∧
      ∀ declared ∈ descriptor.dependencies, AreStated declared.fields := by
  simp only [AreStated, allFields, List.forall_mem_append, List.mem_flatMap, Option.mem_toList,
    forall_exists_index, and_imp, and_assoc]
  constructor
  · rintro ⟨own, parent, dependencies⟩
    refine ⟨own, ?_, ?_⟩
    · intro named isParent field member
      exact parent field named isParent member
    · intro declared isDeclared field member
      exact dependencies field declared isDeclared member
  · rintro ⟨own, parent, dependencies⟩
    refine ⟨own, ?_, ?_⟩
    · intro field named isParent member
      exact parent named isParent field member
    · intro field declared isDeclared member
      exact dependencies declared isDeclared field member

/-- Fields that are all taken from one source are stated when the source states them. -/
theorem areStated_map {source : String → Option String}
    (stated : ∀ name, ∀ text ∈ source name, IsStated text) (names : List String) :
    AreStated (names.map source) := by
  intro field member
  obtain ⟨name, -, rfl⟩ := List.mem_map.1 member
  exact stated name

/-! ## Documents -/

theorem isStated_childText? (node : Node) (name : String) :
    ∀ text ∈ childText? node name, IsStated text := by
  intro text found
  obtain ⟨taken, nonempty⟩ := Option.filter_eq_some_iff.1 found
  obtain ⟨raw, -, rfl⟩ := Option.map_eq_some_iff.1 taken
  refine ⟨?_, raw, rfl⟩
  intro isEmpty
  rw [isEmpty] at nonempty
  cases nonempty

theorem Declared.areStated_ofNode (node : Node) : AreStated (Declared.ofNode node).fields :=
  areStated_map (isStated_childText? node)
    ["groupId", "artifactId", "version", "scope", "classifier", "type", "systemPath"]

theorem Parent.areStated_ofNode (node : Node) : AreStated (Parent.ofNode node).fields :=
  areStated_map (isStated_childText? node) ["groupId", "artifactId", "version"]

theorem areStated_dependenciesOf (node : Node) :
    ∀ declared ∈ dependenciesOf node, AreStated declared.fields := by
  intro declared member
  rw [dependenciesOf] at member
  split at member
  · obtain ⟨element, -, rfl⟩ := List.mem_map.1 member
    exact Declared.areStated_ofNode element
  · cases member

theorem isStated_managedOf (project : Node) :
    ∀ entry ∈ managedOf project, IsStated entry.version := by
  intro entry member
  rw [managedOf] at member
  split at member
  · rename_i management _
    obtain ⟨declared, isDeclared, isEntry⟩ := List.mem_filterMap.1 (List.mem_reverse.1 member)
    obtain ⟨group, artifact, version, scope, classifier, type, systemPath, optional⟩ := declared
    simp only [Managed.of?, Option.bind_eq_bind, Option.bind_eq_some_iff] at isEntry
    obtain ⟨_, -, _, -, version, rfl, isEntry⟩ := isEntry
    cases isEntry
    exact areStated_dependenciesOf management _ isDeclared (some version) (by simp [Declared.fields])
      version rfl
  · cases member

/-- A managed version is stated as well. -/
theorem Declared.areStated_manage {managed : List Managed} {declared : Declared}
    (entries : ∀ entry ∈ managed, IsStated entry.version) (own : AreStated declared.fields) :
    AreStated (declared.manage managed).fields := by
  obtain ⟨group, artifact, version, scope, classifier, type, systemPath, optional⟩ := declared
  rw [manage]
  split
  · simp only [AreStated, fields, List.forall_mem_cons] at own ⊢
    obtain ⟨ownGroup, ownArtifact, -, others⟩ := own
    refine ⟨ownGroup, ownArtifact, ?_, others⟩
    intro text isManaged
    obtain ⟨entry, found, rfl⟩ := Option.map_eq_some_iff.1 isManaged
    exact entries entry (List.mem_of_find?_eq_some found)
  · exact own

/-- Every field of a document's project is stated. -/
theorem areStated_ofProject (project : Node) : AreStated (ofProject project).allFields := by
  refine areStated_allFields_iff.2 ⟨?_, ?_, ?_⟩
  · exact areStated_map (isStated_childText? project)
      ["groupId", "artifactId", "version", "packaging"]
  · intro parent isParent
    obtain ⟨element, -, rfl⟩ := Option.map_eq_some_iff.1 isParent
    exact Parent.areStated_ofNode element
  · intro declared member
    obtain ⟨written, isWritten, rfl⟩ := List.mem_map.1 member
    exact Declared.areStated_manage (isStated_managedOf project)
      (areStated_dependenciesOf project written isWritten)

/-! ## Patterns -/

theorem isStated_lookup_fields (block : List Char) (name : String) :
    ∀ text ∈ (fields block).lookup name, IsStated text := by
  intro text found
  obtain ⟨before, after, shape, -⟩ := List.lookup_eq_some_iff.1 found
  have member : (name, text) ∈ fields block := by
    rw [shape]
    simp
  obtain ⟨isPair, nonempty⟩ := List.mem_filter.1 member
  obtain ⟨leaf, -, isLeaf⟩ := List.mem_filterMap.1 isPair
  rw [Leaf.pair?] at isLeaf
  split at isLeaf
  · cases isLeaf
    refine ⟨?_, String.ofList leaf.content, by rw [Text.trimmed, String.toList_ofList]⟩
    intro isEmpty
    rw [isEmpty] at nonempty
    cases nonempty
  · cases isLeaf

theorem areStated_scrape (text : List Char) : AreStated (scrape text).allFields := by
  refine areStated_allFields_iff.2 ⟨?_, ?_, ?_⟩
  · exact areStated_map (isStated_lookup_fields _)
      ["groupId", "artifactId", "version", "packaging"]
  · intro parent isParent
    obtain ⟨inside, -, rfl⟩ := Option.map_eq_some_iff.1 isParent
    exact areStated_map (isStated_lookup_fields inside) ["groupId", "artifactId", "version"]
  · intro declared member
    obtain ⟨isDeclared, -⟩ := List.mem_filter.1 member
    obtain ⟨block, -, rfl⟩ := List.mem_map.1 isDeclared
    exact areStated_map (isStated_lookup_fields _)
      ["groupId", "artifactId", "version", "scope", "classifier", "type", "systemPath"]

/-- Whichever way a text is read, the fields that are there are stated. -/
theorem areStated_read (text : List Char) : AreStated (read text).1.allFields := by
  rw [read]
  split
  · rename_i descriptor parsed
    obtain ⟨document, -, isDescriptor⟩ := Option.bind_eq_some_iff.1 parsed
    obtain ⟨project, -, rfl⟩ := Option.map_eq_some_iff.1 isDescriptor
    exact areStated_ofProject project
  · exact areStated_scrape text

end Reading

end ClassAtlas.Descriptor
