import ClassAtlas.Proofs.Descriptor.Agreement

/-!
# Sections of a descriptor

A descriptor may have sections that concern neither its identity nor what it depends on: how it
is built, and in which profiles.  They hold coordinates, properties, modules and dependencies of
their own.  Reading by pattern takes the sections out of the text in which it looks for the
identity and the modules of the project.  It leaves them in the texts in which it looks for the
properties and the dependencies, so that those of a section are taken for the project's
(`scrape_sectioned`).
-/

namespace ClassAtlas.Descriptor

open Markup

/-! ## Sections -/

/-- The names of sections. -/
def sectionNames : List String := ["build", "profiles"]

/-- The blocks in a section that a reader by pattern looks for. -/
def sectionBlocks : List (String × Part) :=
  [("properties", .properties), ("dependencyManagement", .management),
    ("dependencies", .dependencies)]

/-- The content may stand in a section.  Elements of any name may be there, on whichever level,
but of those that a reader by pattern takes for blocks only some, with what belongs in them. -/
def isSectionContent : Content → Bool
  | .last _ => true
  | .remark _ _ rest => isSectionContent rest
  | .unclosed _ name rest => !Part.blockNames.contains name.text && isSectionContent rest
  | .leaf _ name _ rest => !Part.blockNames.contains name.text && isSectionContent rest
  | .block _ name inner rest =>
      (match sectionBlocks.lookup name.text with
        | some part => part.complete inner && part.admits inner
        | none => !Part.blockNames.contains name.text && isSectionContent inner) &&
      isSectionContent rest

/-- A section of a descriptor. -/
structure Section where
  name : Name
  content : Content
  isSection : name.text ∈ sectionNames
  fits : isSectionContent content = true

/-- The content of a descriptor, with sections between its parts. -/
inductive Sectioned where
  | none (content : Content)
  | insert (front : Content) (added : Section) (rest : Sectioned)

namespace Sectioned

/-- The content with the sections. -/
def whole : Sectioned → Content
  | none content => content
  | insert front added rest =>
      front.append (.block .none added.name added.content rest.whole)

/-- The content without the sections. -/
def plain : Sectioned → Content
  | none content => content
  | insert front _ rest => front.append rest.plain

def sections : Sectioned → List Section
  | none _ => []
  | insert _ added rest => added :: rest.sections

/-- The content before the first section. -/
def front : Sectioned → Content
  | none content => content
  | insert front _ _ => front

end Sectioned

/-- The properties that are listed first, on whichever level. -/
def propertiesIn (content : Content) : Option (List (String × String)) :=
  (content.insides "properties").head?.map fun properties =>
    properties.leaves.map fun (name, value) => (name.text, value.text)

/-- The dependencies that are listed on whichever level, without those that are only managed. -/
def dependenciesIn (content : Content) : List Declared :=
  ((content.without "dependencyManagement").insides "dependency").map Declared.written

/-! ## What stands in a section -/

section Content

variable {part inside : Part} {name : Name} {block : String} {content inner : Content}

theorem ne_of_not_contains (other : (!Part.blockNames.contains name.text) = true)
    (isBlock : block ∈ Part.blockNames) : name.text ≠ block := by
  intro same
  rw [same, List.contains_iff_mem.2 isBlock] at other
  cases other

/-- A block in a section is one that a reader looks for, or holds what may stand in a section. -/
theorem isSectionContent_block {spaces : Spaces} {rest : Content}
    (fits : isSectionContent (.block spaces name inner rest) = true) :
    ((∃ part, (name.text, part) ∈ sectionBlocks ∧ part.complete inner = true ∧
        part.admits inner = true) ∨
      (!Part.blockNames.contains name.text) = true ∧ isSectionContent inner = true) ∧
    isSectionContent rest = true := by
  rw [isSectionContent, Bool.and_eq_true] at fits
  refine ⟨?_, fits.2⟩
  split at fits
  · rename_i part found
    obtain ⟨before, after, shape, _⟩ := List.lookup_eq_some_iff.1 found
    exact .inl ⟨part, by rw [shape]; simp, Bool.and_eq_true_iff.1 fits.1⟩
  · exact .inr (Bool.and_eq_true_iff.1 fits.1)

/-- A block that belongs in no section is not mentioned in one. -/
theorem not_mentions_section (fits : isSectionContent content = true)
    (isBlock : block ∈ Part.blockNames)
    (far : ∀ entry ∈ sectionBlocks, entry.1 ≠ block ∧ block ∉ entry.2.reach) :
    ¬content.Mentions block := by
  have isRead := Part.blockNames_subset_readNames isBlock
  induction content with
  | last spaces => exact id
  | remark spaces comment rest ih => exact ih fits
  | unclosed spaces own rest ih | leaf spaces own value rest ih =>
      rw [isSectionContent, Bool.and_eq_true] at fits
      exact not_or.2 ⟨ne_of_not_contains fits.1 isBlock, ih fits.2⟩
  | block spaces own inner rest innerIH ih =>
      obtain ⟨first, later⟩ := isSectionContent_block fits
      rcases first with ⟨part, listed, -, fitsPart⟩ | ⟨other, fitsInner⟩
      · exact not_or.2 ⟨(far _ listed).1,
          not_or.2 ⟨Part.not_mentions fitsPart isRead (far _ listed).2, ih later⟩⟩
      · exact not_or.2 ⟨ne_of_not_contains other isBlock, not_or.2 ⟨innerIH fitsInner, ih later⟩⟩

theorem separate_section (fits : isSectionContent content = true)
    (isBlock : block ∈ Part.blockNames) : content.Separate block := by
  have isRead := Part.blockNames_subset_readNames isBlock
  induction content with
  | last spaces => trivial
  | remark spaces comment rest ih => exact ih fits
  | unclosed spaces own rest ih | leaf spaces own value rest ih =>
      rw [isSectionContent, Bool.and_eq_true] at fits
      exact ⟨ne_of_not_contains fits.1 isBlock, ih fits.2⟩
  | block spaces own inner rest innerIH ih =>
      obtain ⟨first, later⟩ := isSectionContent_block fits
      refine ⟨?_, ih later⟩
      rcases first with ⟨part, listed, -, fitsPart⟩ | ⟨other, fitsInner⟩
      · split
        · rename_i same
          have notNested : ∀ entry ∈ sectionBlocks, entry.1 ∉ entry.2.reach := by decide
          exact Part.not_mentions fitsPart isRead (same ▸ notNested _ listed)
        · exact Part.separate fitsPart isBlock
      · rw [if_neg (ne_of_not_contains other isBlock)]
        exact innerIH fitsInner

/-- What stands in a block, on whichever level, belongs in the part that the block always is. -/
theorem admits_of_mem_insides (fits : part.admits content = true)
    (only : ∀ part : Part, ∀ entry ∈ part.blocks, entry.1 = block → entry.2 = inside)
    (member : inner ∈ content.insides block) :
    inside.complete inner = true ∧ inside.admits inner = true := by
  induction content generalizing part with
  | last spaces => cases member
  | remark spaces comment rest ih => exact ih fits member
  | unclosed spaces own rest ih | leaf spaces own value rest ih =>
      rw [Part.admits, Bool.and_eq_true] at fits
      exact ih fits.2 member
  | block spaces own within rest innerIH ih =>
      rw [Part.admits, Bool.and_eq_true] at fits
      obtain ⟨other, listed, good⟩ := Part.admits_block fits.1
      rw [Content.insides, List.mem_append] at member
      rcases member with first | later
      · split at first
        · rename_i same
          cases List.mem_singleton.1 first
          rwa [← only part _ listed same]
        · exact innerIH good.2 first
      · exact ih fits.2 later

@[inherit_doc admits_of_mem_insides]
theorem admits_of_mem_insides_section (fits : isSectionContent content = true)
    (only : ∀ part : Part, ∀ entry ∈ part.blocks ++ sectionBlocks, entry.1 = block →
      entry.2 = inside)
    (isBlock : block ∈ Part.blockNames) (member : inner ∈ content.insides block) :
    inside.complete inner = true ∧ inside.admits inner = true := by
  induction content with
  | last spaces => cases member
  | remark spaces comment rest ih => exact ih fits member
  | unclosed spaces own rest ih | leaf spaces own value rest ih =>
      rw [isSectionContent, Bool.and_eq_true] at fits
      exact ih fits.2 member
  | block spaces own within rest innerIH ih =>
      obtain ⟨first, later⟩ := isSectionContent_block fits
      rw [Content.insides, List.mem_append] at member
      rcases member with inBlock | inRest
      · rcases first with ⟨part, listed, good⟩ | ⟨other, fitsInner⟩
        · split at inBlock
          · rename_i same
            cases List.mem_singleton.1 inBlock
            rwa [← only part _ (List.mem_append_right _ listed) same]
          · exact admits_of_mem_insides good.2
              (fun part entry isPart => only part entry (List.mem_append_left _ isPart)) inBlock
        · rw [if_neg (ne_of_not_contains other isBlock)] at inBlock
          exact innerIH fitsInner inBlock
      · exact ih later inRest

end Content

/-! ## Sections between the parts -/

theorem Part.admits_append (part : Part) (front back : Content) :
    part.admits (front.append back) = (part.admits front && part.admits back) := by
  induction front with
  | last spaces => exact Part.admits_prepend spaces
  | remark spaces comment rest ih => exact ih
  | unclosed _ _ _ ih | leaf _ _ _ _ ih | block _ _ _ _ _ ih =>
      rw [Content.append, admits, ih, ← Bool.and_assoc]
      rfl

theorem withoutAll_append (names : List String) (front back : Content) :
    withoutAll names (front.append back) =
      (withoutAll names front).append (withoutAll names back) := by
  induction names generalizing front back with
  | nil => rfl
  | cons name rest ih =>
      have first := Content.without_append name front back
      exact (congrArg (withoutAll rest) first).trans (ih _ _)

/-- A block whose name is among those that are taken out leaves nothing behind. -/
theorem withoutAll_append_block {names : List String} {name : Name} (taken : name.text ∈ names)
    (front inner back : Content) :
    withoutAll names (front.append (.block .none name inner back)) =
      withoutAll names (front.append back) := by
  induction names generalizing front inner back with
  | nil => cases taken
  | cons first rest ih =>
      change withoutAll rest ((front.append (.block .none name inner back)).without first) =
        withoutAll rest ((front.append back).without first)
      rw [Content.without_append, Content.without_append, Content.without]
      split
      · rw [Content.prepend_none]
      · rename_i apart
        -- The block stays until its own name comes, and loses what the others name in it.
        exact ih ((List.mem_cons.1 taken).resolve_left apart) _ _ _

theorem Section.name_ne {name : String} (added : Section) (other : name ∉ sectionNames) :
    added.name.text ≠ name := by
  intro same
  exact other (same ▸ added.isSection)

namespace Sectioned

variable {sectioned : Sectioned} {block : String}

theorem withoutAll_whole {names : List String} (taken : sectionNames ⊆ names)
    (sectioned : Sectioned) :
    withoutAll names sectioned.whole = withoutAll names sectioned.plain := by
  induction sectioned with
  | none content => rfl
  | insert front added rest ih =>
      rw [whole, withoutAll_append_block (taken added.isSection), withoutAll_append, ih, plain,
        withoutAll_append]

/-- Blocks of one name stay apart when sections are inserted. -/
theorem separate_whole (isBlock : block ∈ Part.blockNames)
    (separate : sectioned.plain.Separate block) : sectioned.whole.Separate block := by
  induction sectioned with
  | none content => exact separate
  | insert front added rest ih =>
      obtain ⟨before, later⟩ := (Content.separate_append block _ _).1 separate
      refine (Content.separate_append block _ _).2 ⟨before, ?_, ih later⟩
      split
      · rename_i same
        have areBlocks : ∀ name ∈ sectionNames, name ∈ Part.blockNames ∧
            ∀ entry ∈ sectionBlocks, entry.1 ≠ name ∧ name ∉ entry.2.reach := by decide
        have far := (areBlocks _ added.isSection).2
        rw [same] at far
        exact not_mentions_section added.fits isBlock far
      · exact separate_section added.fits isBlock

theorem insides_insert (other : block ∉ sectionNames) (front : Content) (added : Section)
    (rest : Sectioned) :
    (insert front added rest).whole.insides block =
      front.insides block ++ (added.content.insides block ++ rest.whole.insides block) := by
  rw [whole, Content.insides_append, Content.insides,
    if_neg (added.name_ne other)]

/-- The parents that are named in the sections are none. -/
theorem insides_parent (sectioned : Sectioned) :
    sectioned.whole.insides "parent" = sectioned.plain.insides "parent" := by
  induction sectioned with
  | none content => rfl
  | insert front added rest ih =>
      have absent : ¬added.content.Mentions "parent" :=
        not_mentions_section added.fits (by decide) (by decide)
      rw [insides_insert (by decide), Content.insides_of_not_mentions absent, List.nil_append, ih,
        plain, Content.insides_append]

/-- With sections in it a descriptor still has in its blocks what belongs there. -/
theorem admits_of_mem_insides_whole {part inside : Part} {inner : Content}
    (fits : part.admits sectioned.plain = true)
    (only : ∀ part : Part, ∀ entry ∈ part.blocks ++ sectionBlocks, entry.1 = block →
      entry.2 = inside)
    (isBlock : block ∈ Part.blockNames) (other : block ∉ sectionNames)
    (member : inner ∈ sectioned.whole.insides block) :
    inside.complete inner = true ∧ inside.admits inner = true := by
  have onlyPart (part : Part) (entry : String × Part) (isPart : entry ∈ part.blocks) :
      entry.1 = block → entry.2 = inside :=
    only part entry (List.mem_append_left _ isPart)
  induction sectioned with
  | none content => exact admits_of_mem_insides fits onlyPart member
  | insert front added rest ih =>
      rw [plain, Part.admits_append, Bool.and_eq_true] at fits
      rw [insides_insert other, List.mem_append, List.mem_append] at member
      rcases member with inFront | inSection | inRest
      · exact admits_of_mem_insides fits.1 onlyPart inFront
      · exact admits_of_mem_insides_section added.fits only isBlock inSection
      · exact ih fits.2 inRest

end Sectioned

/-! ## Reading with sections -/

/-- A block that is left when others are taken out has only lost these. -/
theorem exists_of_mem_insides_without {name block : String} {content inner : Content}
    (member : inner ∈ (content.without name).insides block) :
    ∃ original ∈ content.insides block, inner = original.without name := by
  induction content with
  | last spaces => cases member
  | remark spaces comment rest ih => exact ih member
  | unclosed spaces own rest ih => exact ih member
  | leaf spaces own value rest ih => exact ih member
  | block spaces own within rest innerIH ih =>
      rw [Content.insides]
      rw [Content.without] at member
      split at member
      · rw [Content.insides_prepend] at member
        obtain ⟨original, found, shape⟩ := ih member
        exact ⟨original, List.mem_append_right _ found, shape⟩
      · rw [Content.insides, List.mem_append] at member
        rcases member with first | later
        · split at first
          · rename_i same
            rw [if_pos same]
            exact ⟨within, List.mem_append_left _ List.mem_cons_self, List.mem_singleton.1 first⟩
          · rename_i apart
            rw [if_neg apart]
            obtain ⟨original, found, shape⟩ := innerIH first
            exact ⟨original, List.mem_append_left _ found, shape⟩
        · obtain ⟨original, found, shape⟩ := ih later
          exact ⟨original, List.mem_append_right _ found, shape⟩

section Found

variable (sectioned : Sectioned) (fits : Part.project.admits sectioned.plain = true)

include fits

theorem properties_whole :
    (found sectioned.whole).properties =
      KeyedTable.ofList ((propertiesIn sectioned.whole).getD []) := by
  simp only [found, propertiesIn]
  congr 2
  apply Option.map_congr
  intro inner isFirst
  have only : ∀ part : Part, ∀ entry ∈ part.blocks ++ sectionBlocks, entry.1 = "properties" →
      entry.2 = .properties := by
    intro part
    cases part <;> decide
  exact pairs_properties (Sectioned.admits_of_mem_insides_whole fits only (by decide) (by decide)
    (List.mem_of_head? isFirst)).2

theorem dependencies_whole :
    (found sectioned.whole).dependencies = dependenciesIn sectioned.whole := by
  have good : ∀ inner ∈ (sectioned.whole.without "dependencyManagement").insides "dependency",
      Part.dependency.complete inner = true ∧ Part.dependency.admits inner = true := by
    intro inner member
    have only : ∀ part : Part, ∀ entry ∈ part.blocks ++ sectionBlocks, entry.1 = "dependency" →
        entry.2 = .dependency := by
      intro part
      cases part <;> decide
    obtain ⟨original, isDependency, rfl⟩ := exists_of_mem_insides_without member
    obtain ⟨complete, fits⟩ := Sectioned.admits_of_mem_insides_whole fits only (by decide)
      (by decide) isDependency
    rw [Part.complete_congr fun name => Content.value?_without name original]
    exact ⟨complete, Part.admits_without fits _⟩
  have declared : (((sectioned.whole.without "dependencyManagement").insides "dependency").map
      fun inner => declaredIn (inner.text false)) = dependenciesIn sectioned.whole :=
    List.map_congr_left fun inner member => declaredIn_text (good inner member).2
  rw [found]
  simp only [declared]
  rw [List.filter_eq_self]
  intro dependency member
  obtain ⟨inner, isDependency, rfl⟩ := List.mem_map.1 member
  have complete := (good inner isDependency).1
  simp only [Part.complete, bne_self_eq_false, Bool.false_or, Bool.and_eq_true] at complete
  simp [Declared.written, complete]

theorem scrape_whole : scrape (sectioned.whole.document projectName) = found sectioned.whole :=
  scrape_document fun _ isBlock =>
    Sectioned.separate_whole isBlock (Part.separate fits isBlock)

/-- Only properties and dependencies are found in the sections. -/
theorem found_whole :
    found sectioned.whole =
      { found sectioned.plain with
        properties := KeyedTable.ofList ((propertiesIn sectioned.whole).getD [])
        dependencies := dependenciesIn sectioned.whole } := by
  have outside : withoutAll Document.innerNames sectioned.whole =
      withoutAll Document.innerNames sectioned.plain :=
    Sectioned.withoutAll_whole (by decide) sectioned
  rw [← properties_whole sectioned fits, ← dependencies_whole sectioned fits]
  simp only [found, outside, sectioned.insides_parent]

end Found

/-! ## What sections change -/

namespace Sectioned

theorem propertiesIn_append (front back : Content) :
    propertiesIn (front.append back) = (propertiesIn front).or (propertiesIn back) := by
  rw [propertiesIn, Content.insides_append, List.head?_append, Option.map_or]
  rfl

theorem propertiesIn_insert (front : Content) (added : Section) (rest : Sectioned) :
    propertiesIn (insert front added rest).whole =
      (propertiesIn front).or ((propertiesIn added.content).or (propertiesIn rest.whole)) := by
  rw [propertiesIn, insides_insert (by decide), List.head?_append, List.head?_append,
    Option.map_or, Option.map_or]
  rfl

theorem propertiesIn_whole (sectioned : Sectioned)
    (unseen : (∀ added ∈ sectioned.sections, propertiesIn added.content = Option.none) ∨
      (propertiesIn sectioned.front).isSome = true) :
    propertiesIn sectioned.whole = propertiesIn sectioned.plain := by
  induction sectioned with
  | none content => rfl
  | insert front added rest ih =>
      rw [propertiesIn_insert, plain, propertiesIn_append]
      rcases unseen with absent | first
      · have later := ih (.inl fun other member => absent other (List.mem_cons_of_mem added member))
        rw [absent added List.mem_cons_self, Option.none_or, later]
      · have first : (propertiesIn front).isSome = true := first
        rw [Option.or_of_isSome first, Option.or_of_isSome first]

theorem dependenciesIn_append (front back : Content) :
    dependenciesIn (front.append back) = dependenciesIn front ++ dependenciesIn back := by
  rw [dependenciesIn, Content.without_append, Content.insides_append, List.map_append]
  rfl

theorem dependenciesIn_insert (front : Content) (added : Section) (rest : Sectioned) :
    dependenciesIn (insert front added rest).whole =
      dependenciesIn front ++ (dependenciesIn added.content ++ dependenciesIn rest.whole) := by
  rw [dependenciesIn, whole, Content.without_append, Content.without,
    if_neg (added.name_ne (by decide)), Content.insides_append, Content.insides,
    if_neg (added.name_ne (by decide)), List.map_append, List.map_append]
  rfl

/-- The dependencies of the sections are found, each as one more. -/
theorem length_dependenciesIn_whole (sectioned : Sectioned) :
    (dependenciesIn sectioned.whole).length = (dependenciesIn sectioned.plain).length +
      (sectioned.sections.map fun added => (dependenciesIn added.content).length).sum := by
  induction sectioned with
  | none content => rfl
  | insert front added rest ih =>
      rw [dependenciesIn_insert, plain, dependenciesIn_append, sections, List.map_cons,
        List.sum_cons, List.length_append, List.length_append, List.length_append, ih]
      omega

theorem dependenciesIn_sublist (sectioned : Sectioned) :
    (dependenciesIn sectioned.plain).Sublist (dependenciesIn sectioned.whole) := by
  induction sectioned with
  | none content => exact .refl _
  | insert front added rest ih =>
      rw [dependenciesIn_insert, plain, dependenciesIn_append]
      exact (ih.trans (List.sublist_append_right _ _)).append_left _

theorem dependenciesIn_whole_iff (sectioned : Sectioned) :
    dependenciesIn sectioned.whole = dependenciesIn sectioned.plain ↔
      ∀ added ∈ sectioned.sections, dependenciesIn added.content = [] := by
  have counts := sectioned.length_dependenciesIn_whole
  have none : (sectioned.sections.map fun added => (dependenciesIn added.content).length).sum = 0 ↔
      ∀ added ∈ sectioned.sections, dependenciesIn added.content = [] := by
    simp [List.sum_eq_zero_iff]
  rw [← none]
  constructor
  · intro same
    rw [same] at counts
    omega
  · intro zero
    exact (sectioned.dependenciesIn_sublist.eq_of_length (by omega)).symm

end Sectioned

/-- Sections change nothing but the properties and the dependencies that reading by pattern finds:
the first properties are found, wherever they stand, and all dependencies are.  So a section goes
unseen when it lists no dependency, and no properties either or only behind those of the
project. -/
theorem scrape_sectioned (document : Document) (sectioned : Sectioned)
    (same : sectioned.plain = document.content) :
    let sections := sectioned.sections
    let answer := scrape (sectioned.whole.document projectName)
    answer =
      { scrape document.text with
        properties := KeyedTable.ofList ((propertiesIn sectioned.whole).getD [])
        dependencies := dependenciesIn sectioned.whole } ∧
    (answer.dependencies = (scrape document.text).dependencies ↔
      ∀ added ∈ sections, dependenciesIn added.content = []) ∧
    ((∀ added ∈ sections, dependenciesIn added.content = []) →
      ((∀ added ∈ sections, propertiesIn added.content = none) ∨
        (propertiesIn sectioned.front).isSome = true) →
      answer = scrape document.text) := by
  intro sections answer
  have fits : Part.project.admits sectioned.plain = true := same ▸ document.fits
  have alone : scrape document.text = found sectioned.plain := by
    rw [Document.text, ← same]
    exact scrape_whole (.none sectioned.plain) fits
  have isAnswer : answer =
      { scrape document.text with
        properties := KeyedTable.ofList ((propertiesIn sectioned.whole).getD [])
        dependencies := dependenciesIn sectioned.whole } := by
    rw [alone, ← found_whole sectioned fits]
    exact scrape_whole sectioned fits
  have properties : (scrape document.text).properties =
      KeyedTable.ofList ((propertiesIn sectioned.plain).getD []) := by
    rw [alone]
    exact properties_whole (.none sectioned.plain) fits
  have dependencies : (scrape document.text).dependencies = dependenciesIn sectioned.plain := by
    rw [alone]
    exact dependencies_whole (.none sectioned.plain) fits
  refine ⟨isAnswer, ?_, ?_⟩
  · rw [isAnswer, dependencies]
    exact sectioned.dependenciesIn_whole_iff
  · intro noDependency unseen
    rw [isAnswer, sectioned.propertiesIn_whole unseen,
      sectioned.dependenciesIn_whole_iff.2 noDependency, ← properties, ← dependencies]

namespace Sample

open Document.Sample (named)

def ending : Content := .last .none

def property (rest : Content) : Content :=
  .block .none ⟨"properties".toList, by decide, by decide⟩
    (.leaf .none ⟨"encoding".toList, by decide, by decide⟩
      ⟨"latin".toList, by decide, by decide, by decide⟩ ending) rest

def dependency : Content := Document.Sample.dependencies ending ending

/-- A module with a property and a dependency. -/
def module : Document where
  content := named (property dependency)
  fits := by decide
  modulesOnce := by decide
  dependenciesOnce := by decide

/-- A plugin with coordinates. -/
def build : Section where
  name := ⟨"build".toList, by decide, by decide⟩
  content := .block .none ⟨"plugins".toList, by decide, by decide⟩
    (.block .none ⟨"plugin".toList, by decide, by decide⟩ (named ending) ending) ending
  isSection := by decide
  fits := by decide

def profile (content : Content) : Content :=
  .block .none ⟨"profile".toList, by decide, by decide⟩ content ending

/-- A profile with a property. -/
def quiet : Section where
  name := ⟨"profiles".toList, by decide, by decide⟩
  content := profile (property ending)
  isSection := by decide
  fits := by decide

/-- A profile with a dependency. -/
def leaking : Section where
  name := ⟨"profiles".toList, by decide, by decide⟩
  content := profile dependency
  isSection := by decide
  fits := by decide

/-- The module with a plugin and a profile behind its property. -/
def unseen : Sectioned :=
  .insert (named (property ending)) build (.insert ending quiet (.none dependency))

/-- The module with a dependency in a profile. -/
def seen : Sectioned :=
  .insert (named (property ending)) leaking (.none dependency)

end Sample

/-- Plugins and profiles behind the properties of the project, without dependencies. -/
theorem scrape_sectioned_unseen :
    Sample.unseen.plain = Sample.module.content ∧
      (∀ added ∈ Sample.unseen.sections, dependenciesIn added.content = []) ∧
      (propertiesIn Sample.unseen.front).isSome = true ∧
      scrape (Sample.unseen.whole.document projectName) = scrape Sample.module.text := by
  have same : Sample.unseen.plain = Sample.module.content := rfl
  have noDependency : ∀ added ∈ Sample.unseen.sections, dependenciesIn added.content = [] := by
    decide
  have first : (propertiesIn Sample.unseen.front).isSome = true := by decide
  exact ⟨same, noDependency, first,
    (scrape_sectioned Sample.module Sample.unseen same).2.2 noDependency (.inr first)⟩

/-- A dependency of a profile is taken for one of the project. -/
theorem not_scrape_sectioned :
    ¬∀ (document : Document) (sectioned : Sectioned), sectioned.plain = document.content →
      scrape (sectioned.whole.document projectName) = scrape document.text := by
  intro unseen
  have found := congrArg Descriptor.dependencies (unseen Sample.module Sample.seen rfl)
  rw [scrape_whole Sample.seen Sample.module.fits,
    dependencies_whole Sample.seen Sample.module.fits, Sample.module.scrape_text] at found
  revert found
  decide

end ClassAtlas.Descriptor
