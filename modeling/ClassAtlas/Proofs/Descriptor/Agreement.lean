import ClassAtlas.Proofs.Descriptor.Leaves
import ClassAtlas.Proofs.Descriptor.Structural
import ClassAtlas.Proofs.Markup.Joining

/-!
# Agreement of the readers

Reading by pattern finds in a plain descriptor what reading it as a document does,
except for the managed versions.  It is not disturbed by tags that are never closed, which
keep the descriptor from being read as a document.

Each field is looked for in what remains when blocks are taken out of the text.  As the
text of a part without blocks is the text of its content without them, each search is
one in the content, where only the block that belongs to it can mention what is sought.
-/

namespace ClassAtlas.Descriptor

open Markup

variable {part : Part} {content : Content} {name field : String}

/-! ## Taking blocks out of content -/

/-- The content without the blocks of several names. -/
def withoutAll (names : List String) (content : Content) : Content :=
  names.foldl (fun content name => content.without name) content

theorem admits_withoutAll (fits : part.admits content = true) (names : List String) :
    part.admits (withoutAll names content) = true := by
  induction names generalizing content with
  | nil => exact fits
  | cons name rest ih => exact ih (Part.admits_without fits name)

theorem value?_withoutAll (names : List String) (content : Content) :
    (withoutAll names content).value? field = content.value? field := by
  induction names generalizing content with
  | nil => rfl
  | cons name rest ih => exact (ih (content.without name)).trans (content.value?_without field)

theorem mem_blocks_without {block : Name × Content}
    (member : block ∈ (content.without name).blocks) :
    block.1.text ≠ name ∧ ∃ inner, (block.1, inner) ∈ content.blocks := by
  rw [Content.blocks_without] at member
  obtain ⟨⟨own, inner⟩, kept, rfl⟩ := List.mem_map.1 member
  obtain ⟨found, apart⟩ := List.mem_filter.1 kept
  exact ⟨of_decide_eq_true apart, inner, found⟩

theorem mem_blocks_withoutAll {names : List String} {block : Name × Content}
    (member : block ∈ (withoutAll names content).blocks) :
    block.1.text ∉ names ∧ ∃ inner, (block.1, inner) ∈ content.blocks := by
  induction names generalizing content with
  | nil => exact ⟨List.not_mem_nil, block.2, member⟩
  | cons name rest ih =>
      obtain ⟨later, inner, found⟩ := ih member
      obtain ⟨apart, original⟩ := mem_blocks_without found
      exact ⟨fun bad => (List.mem_cons.1 bad).elim apart later, original⟩

/-- Blocks that cannot hold those which are taken out stay. -/
theorem blocksNamed_without (fits : part.admits content = true) {block : String}
    (isRead : block ∈ readNames) (apart : name ≠ block) {inside : Part}
    (isPart : part.blocks.lookup name = some inside) (far : block ∉ inside.reach) :
    (content.without block).blocksNamed name = content.blocksNamed name := by
  have kept : ((content.without block).blocks.filter fun entry => entry.1.text = name) =
      (content.blocks.filter fun entry => entry.1.text = name).map fun entry =>
        (entry.1, entry.2.without block) := by
    rw [Content.blocks_without, List.filter_map, List.filter_filter]
    congr 1
    apply List.filter_congr
    intro entry member
    by_cases same : entry.1.text = name
    · simp [same, apart]
    · simp [same]
  rw [Content.blocksNamed, kept, List.map_map, Content.blocksNamed]
  apply List.map_congr_left
  intro entry member
  have good := Part.admits_of_mem_blocksNamed fits inside isPart (List.mem_map_of_mem member)
  exact Content.without_of_not_mentions (Part.not_mentions good.2 isRead far)

theorem blocksNamed_withoutAll (fits : part.admits content = true) {names : List String}
    (areRead : names ⊆ readNames) (apart : name ∉ names) {inside : Part}
    (isPart : part.blocks.lookup name = some inside)
    (far : ∀ block ∈ names, block ∉ inside.reach) :
    (withoutAll names content).blocksNamed name = content.blocksNamed name := by
  induction names generalizing content with
  | nil => rfl
  | cons block rest ih =>
      obtain ⟨other, others⟩ := not_or.1 (mt List.mem_cons.2 apart)
      have isRead : block ∈ readNames := areRead List.mem_cons_self
      have first := blocksNamed_without fits isRead other isPart (far block List.mem_cons_self)
      have later := ih (Part.admits_without fits block)
        (fun entry member => areRead (List.mem_cons_of_mem block member)) others
        fun entry member => far entry (List.mem_cons_of_mem block member)
      exact later.trans first

/-! ## Taking blocks out of text -/

theorem exists_name : ∀ block ∈ Part.blockNames, ∃ name : Name, name.text = block := by
  have valid : ∀ block ∈ Part.blockNames, QualifiedName.startsName block.toList = true ∧
      block.toList.all isNamePart = true := by decide
  intro block member
  obtain ⟨begins, continues⟩ := valid block member
  exact ⟨⟨block.toList, begins, continues⟩, String.ofList_toList⟩

/-- The blocks of a name in the text of content are those of the content. -/
theorem split_separate {block : String} (separate : content.Separate block)
    (isBlock : block ∈ Part.blockNames) :
    (Block.tagged block).split (content.text false) =
      ((content.insides block).map (Content.text false), (content.without block).text false) := by
  obtain ⟨name, rfl⟩ := exists_name block isBlock
  have whole := split_text separate []
  rw [tagged_text, Block.split_nil (List.cons_ne_nil _ _)] at whole
  rw [tagged_text]
  simpa using whole

/-- The root element of a descriptor as content. -/
def root (content : Content) : Content :=
  .block ⟨[], rfl⟩ projectName content (.last ⟨[], rfl⟩)

theorem projectName_text : projectName.text = "project" := String.ofList_toList

theorem projectName_ne {block : String} (isBlock : block ∈ Part.blockNames) :
    projectName.text ≠ block := by
  rw [projectName_text]
  exact fun same => absurd (same ▸ isBlock) (by decide)

theorem split_root {block : String} (separate : content.Separate block)
    (isBlock : block ∈ Part.blockNames) :
    (Block.tagged block).split ((root content).text false) =
      ((content.insides block).map (Content.text false),
        (root (content.without block)).text false) := by
  have apart := projectName_ne isBlock
  have whole : (root content).Separate block := by
    rw [root, Content.Separate, if_neg apart]
    exact ⟨separate, trivial⟩
  rw [split_separate whole isBlock, root, Content.insides, Content.without, if_neg apart,
    if_neg apart, Content.insides, List.append_nil]
  rfl

theorem foldl_remove {names : List String} (areBlocks : names ⊆ Part.blockNames)
    (separate : ∀ name ∈ names, content.Separate name) :
    (names.map Block.tagged).foldl (fun text block => block.remove text)
      ((root content).text false) = (root (withoutAll names content)).text false := by
  induction names generalizing content with
  | nil => rfl
  | cons name rest ih =>
      rw [List.map_cons, List.foldl_cons, Block.remove,
        split_root (separate name List.mem_cons_self) (areBlocks List.mem_cons_self)]
      apply ih (fun other member => areBlocks (List.mem_cons_of_mem name member))
      intro other member
      exact (separate other (List.mem_cons_of_mem name member)).without name

theorem remove_comments_root (content : Content) :
    Block.comment.remove ((root content).text true) = (root content).text false := by
  have whole := remove_comments (root content) []
  have empty : Block.comment.remove [] = [] := by
    rw [Block.remove, Block.split_nil (by decide)]
  rwa [empty, List.append_nil, List.append_nil] at whole

/-! ## Leaves -/

theorem ne_of_mem_leaves (absent : ¬content.Mentions name) :
    ∀ leaf ∈ content.leaves, leaf.1.text ≠ name := by
  induction content with
  | last spaces => exact fun leaf member => absurd member List.not_mem_nil
  | remark spaces comment rest ih => exact ih absent
  | unclosed spaces own rest ih => exact ih (not_or.1 absent).2
  | leaf spaces own value rest ih =>
      obtain ⟨apart, later⟩ := not_or.1 absent
      intro leaf member
      rcases List.mem_cons.1 member with same | other
      · exact same ▸ apart
      · exact ih later leaf other
  | block spaces own inner rest innerIH ih =>
      obtain ⟨inside, later⟩ := not_or.1 (not_or.1 absent).2
      intro leaf member
      rcases List.mem_append.1 member with inner | other
      · exact innerIH inside leaf inner
      · exact ih later leaf other

theorem lookup_foundIn_eq_none (absent : ¬content.Mentions field) :
    (foundIn content.leaves).lookup field = none := by
  apply List.lookup_eq_none_iff.2
  intro entry member
  obtain ⟨leaf, found, rfl⟩ := List.mem_map.1 member
  have apart := ne_of_mem_leaves absent leaf (List.mem_filter.1 found).1
  simpa using apart.symm

/-- A field that no block mentions is looked up among the leaves outside blocks. -/
theorem lookup_foundIn (plain : isPropertyName field.toList = true)
    (apart : ∀ block ∈ content.blocks, ¬block.2.Mentions field) :
    (foundIn content.leaves).lookup field = content.value? field := by
  induction content with
  | last spaces => rfl
  | remark spaces comment rest ih => exact ih apart
  | unclosed spaces own rest ih => exact ih apart
  | leaf spaces own value rest ih =>
      rw [Content.leaves, foundIn_cons, List.lookup_append, ih apart, Content.value?]
      by_cases same : own.text = field
      · have letters : own.letters = field.toList := by
          rw [← same, Name.text, String.toList_ofList]
        have found : isFound own = true := isFound_of_isPropertyName (letters ▸ plain)
        simp [found, same]
      · have other : (field == own.text) = false := by simpa using Ne.symm same
        cases isFound own <;> simp [other, same]
  | block spaces own inner rest innerIH ih =>
      have none := lookup_foundIn_eq_none (apart _ List.mem_cons_self)
      rw [Content.leaves, foundIn_append, List.lookup_append, none, Option.none_or]
      exact ih fun block member => apart block (List.mem_cons_of_mem _ member)

theorem Part.leaves_are_fields (part : Part) : ∀ field ∈ part.leaves,
    field ∈ readNames ∧ isPropertyName field.toList = true := by
  cases part <;> decide

theorem fields_content (content : Content) :
    fields (content.text false) = foundIn content.leaves := by
  have whole := fields_text content (rfl : AtBlank [])
  have empty : fields [] = [] := by rw [fields, pairs, Leaf.all]; rfl
  rwa [empty, List.append_nil, List.append_nil] at whole

/-- Among the fields of a part without some blocks is the value that the part states, when
the other blocks do not reach the name of the field. -/
theorem lookup_fields (fits : part.admits content = true) (names : List String)
    (isField : field ∈ part.leaves)
    (far : ∀ entry ∈ part.blocks, entry.1 ∉ names → field ∉ entry.2.reach) :
    (foundIn (withoutAll names content).leaves).lookup field = content.value? field := by
  obtain ⟨isRead, plain⟩ := part.leaves_are_fields field isField
  rw [lookup_foundIn plain, value?_withoutAll]
  intro block member
  obtain ⟨inside, isBlock, _, fitsInner⟩ :=
    Part.admits_of_mem_blocks (admits_withoutAll fits names) member
  exact Part.not_mentions fitsInner isRead
    (far _ isBlock (mem_blocks_withoutAll member).1)

/-! ## Blocks -/

/-- What is sought in the blocks stands in those of one name when no other holds it. -/
theorem flatMap_blocks {Found : Type} (search : Content → List Found)
    (other : ∀ block ∈ content.blocks, block.1.text ≠ name → search block.2 = []) :
    content.blocks.flatMap (fun block => search block.2) =
      (content.blocksNamed name).flatMap search := by
  rw [Content.blocksNamed]
  generalize content.blocks = blocks at other ⊢
  induction blocks with
  | nil => rfl
  | cons block rest ih =>
      have later := ih fun entry member => other entry (List.mem_cons_of_mem block member)
      rw [List.flatMap_cons, later]
      by_cases same : block.1.text = name
      · rw [List.filter_cons_of_pos (by simp [same])]
        rfl
      · rw [other block List.mem_cons_self same, List.filter_cons_of_neg (by simp [same])]
        rfl

/-- The blocks of a name that no block reaches stand in the part itself. -/
theorem insides_part (fits : part.admits content = true) (isRead : name ∈ readNames)
    (far : ∀ entry ∈ part.blocks, name ∉ entry.2.reach) :
    content.insides name = content.blocksNamed name := by
  apply Content.insides_eq_blocksNamed
  intro block member _
  obtain ⟨inside, isBlock, _, fitsInner⟩ := Part.admits_of_mem_blocks fits member
  exact Part.not_mentions fitsInner isRead (far _ isBlock)

theorem flatMap_of_length_le_one {Item Found : Type} {items : List Item}
    (once : items.length ≤ 1) (search : Item → List Found) :
    items.flatMap search = (items.head?.map search).getD [] := by
  match items, once with
  | [], _ => rfl
  | [item], _ => simp

/-- The properties that are found in a block are those that its content states. -/
theorem pairs_properties (fits : Part.properties.admits content = true) :
    pairs (content.text false) =
      content.leaves.map fun (name, value) => (name.text, value.text) := by
  have flat : content.blocks = [] := Part.blocks_eq_nil fits rfl
  have every : content.leaves.filter (fun leaf => isFound leaf.1) = content.leaves := by
    apply List.filter_eq_self.2
    intro leaf member
    have plain := Part.admits_of_mem_leaves fits flat member
    simp only [Part.leaves, List.contains_nil, Bool.false_or, Part.admitsOther,
      Bool.and_eq_true] at plain
    exact isFound_of_isPropertyName plain.2
  rw [pairs_text flat, foundIn, every]

/-! ## Modules -/

theorem modulesIn_eq_nil (absent : ¬content.Mentions "module") :
    modulesIn content.leaves = [] := by
  rw [modulesIn, List.map_eq_nil_iff, List.filter_eq_nil_iff]
  intro leaf member
  simpa using ne_of_mem_leaves absent leaf member

/-- Where no leaf states a module, the blocks do. -/
theorem modulesIn_leaves (fits : part.admits content = true) (noLeaf : "module" ∉ part.leaves) :
    modulesIn content.leaves = content.blocks.flatMap fun block => modulesIn block.2.leaves := by
  induction content with
  | last spaces => rfl
  | remark spaces comment rest ih => exact ih fits
  | unclosed spaces own rest ih =>
      rw [Part.admits, Bool.and_eq_true] at fits
      exact ih fits.2
  | leaf spaces own value rest ih =>
      rw [Part.admits, Bool.and_eq_true] at fits
      have apart : own.text ≠ "module" := by
        rcases Part.admits_leaf fits.1 with known | unread
        · exact fun same => noLeaf (same ▸ known)
        · exact Part.ne_of_isUnread unread (by decide)
      rw [Content.leaves, modulesIn_cons, if_neg apart, List.nil_append]
      exact ih fits.2
  | block spaces own inner rest innerIH ih =>
      rw [Part.admits, Bool.and_eq_true] at fits
      rw [Content.leaves, modulesIn_append, ih fits.2, Content.blocks, List.flatMap_cons]

theorem modulesIn_modules (fits : Part.modules.admits content = true) :
    modulesIn content.leaves = content.leaves.map fun leaf => leaf.2.text := by
  rw [modulesIn, List.filter_eq_self.2]
  intro leaf member
  simp [Part.module_of_mem_leaves fits member]

/-! ## Dependencies -/

/-- The dependency that is found in a block is the one that its content declares. -/
theorem declaredIn_text (fits : Part.dependency.admits content = true) :
    declaredIn (content.text false) = Declared.written content := by
  have outside : (Block.tagged "exclusions").remove (content.text false) =
      (withoutAll ["exclusions"] content).text false := by
    have separate := Part.separate fits (by decide : "exclusions" ∈ Part.blockNames)
    rw [Block.remove, split_separate separate (by decide)]
    rfl
  have field : ∀ field ∈ Part.dependency.leaves,
      (foundIn (withoutAll ["exclusions"] content).leaves).lookup field =
        content.value? field := by
    intro field isField
    exact lookup_fields fits ["exclusions"] isField (by simp [Part.blocks])
  rw [declaredIn, outside, fields_content]
  simp (disch := decide) only [Declared.ofFields, Declared.written, field]

/-- The dependencies of a list are the blocks of their name in it. -/
theorem insides_dependencies (fits : Part.dependencies.admits content = true) :
    (content.insides "dependency").map (fun inner => declaredIn (inner.text false)) =
      declarations content := by
  rw [insides_part fits (by decide) (by decide), declarations]
  apply List.map_congr_left
  intro inner member
  exact declaredIn_text (Part.admits_of_mem_blocksNamed fits .dependency (by decide) member).2

/-! ## Descriptors -/

theorem moduleNames_root (fits : Part.project.admits content = true) :
    moduleNames ((root content).text false) = modulesIn content.leaves := by
  have apart : projectName.text ≠ moduleName.text := by
    rw [projectName_text, moduleName_text]
    decide
  have shape : (root content).text false =
      projectName.openingTag ++ (content.text false ++ (projectName.closingTag ++ [])) := rfl
  have nothing : moduleNames [] = [] := by
    rw [moduleNames_eq]
    rfl
  rw [shape, moduleNames_skip (skips_opening_opening apart), moduleNames_text fits,
    moduleNames_skip skips_opening_closing, nothing, List.append_nil]

/-- The names of the blocks around which the fields of the project stand. -/
def Document.innerNames : List String :=
  ["dependencyManagement", "parent", "properties", "dependencies", "build", "profiles"]

/-- What reading by pattern finds in the content of a root element. -/
def found (content : Content) : Descriptor :=
  let outside := withoutAll Document.innerNames content
  { group := (foundIn outside.leaves).lookup "groupId"
    artifact := (foundIn outside.leaves).lookup "artifactId"
    version := (foundIn outside.leaves).lookup "version"
    packaging := (foundIn outside.leaves).lookup "packaging"
    parent := (content.insides "parent").head?.map fun inner =>
      Parent.ofFields (foundIn inner.leaves)
    properties := KeyedTable.ofList
      (((content.insides "properties").head?.map fun inner => pairs (inner.text false)).getD [])
    dependencies := (((content.without "dependencyManagement").insides "dependency").map
      fun inner => declaredIn (inner.text false)).filter
        fun declared => declared.group.isSome || declared.artifact.isSome
    modules := moduleNames ((root outside).text false) }

theorem text_root (content : Content) :
    content.document projectName = (root content).text true := by
  simp [root, Content.document, Content.text]

theorem leaves_root (content : Content) : (root content).leaves = content.leaves := by
  rw [root, Content.leaves, Content.leaves, List.append_nil]

/-- Reading by pattern looks in the content for what it looks for in the text. -/
theorem scrape_document (separate : ∀ block ∈ Part.blockNames, content.Separate block) :
    scrape (content.document projectName) = found content := by
  have unmanaged : (Block.tagged "dependencyManagement").remove ((root content).text false) =
      (root (content.without "dependencyManagement")).text false := by
    rw [Block.remove, split_root (separate _ (by decide)) (by decide)]
  have outside : innerBlocks.foldl (fun text block => block.remove text)
      ((root (content.without "dependencyManagement")).text false) =
        (root (withoutAll Document.innerNames content)).text false := by
    apply foldl_remove (by decide)
    intro block member
    have areBlocks : ["parent", "properties", "dependencies", "build", "profiles"] ⊆
        Part.blockNames := by decide
    exact (separate block (areBlocks member)).without _
  have inside (name : String) (isBlock : name ∈ Part.blockNames)
      (opened : (Block.tagged name).opening ≠ []) :
      (Block.tagged name).inside? ((root content).text false) =
        (content.insides name).head?.map (Content.text false) := by
    rw [Block.inside?_eq_head? opened, split_root (separate name isBlock) isBlock, List.head?_map]
  have dependencies : (Block.tagged "dependency").insides
      ((root (content.without "dependencyManagement")).text false) =
        ((content.without "dependencyManagement").insides "dependency").map
          (Content.text false) := by
    rw [Block.insides, split_root ((separate _ (by decide)).without _) (by decide)]
  rw [text_root, scrape]
  simp only [remove_comments_root, unmanaged, outside, inside "parent" (by decide) (by decide),
    inside "properties" (by decide) (by decide), dependencies, fields_content, Option.map_map,
    leaves_root, List.map_map, Function.comp_def, found]

namespace Document

variable (document : Document)

/-- What the fields of the project are looked for in. -/
def outside : Content := withoutAll innerNames document.content

theorem lookup_outside {field : String} (isField : field ∈ Part.project.leaves) :
    (foundIn document.outside.leaves).lookup field = document.content.value? field := by
  have far : ∀ field ∈ Part.project.leaves, ∀ entry ∈ Part.project.blocks,
      entry.1 ∉ innerNames → field ∉ entry.2.reach := by decide
  exact lookup_fields document.fits innerNames isField (far field isField)

theorem parent_found : (found document.content).parent = document.written.parent := by
  have inside := insides_part document.fits (by decide : "parent" ∈ readNames) (by decide)
  rw [found, inside, written]
  apply Option.map_congr
  intro inner isParent
  have fits := Part.admits_of_block? document.fits .parent (by decide) isParent
  have field : ∀ field ∈ Part.parent.leaves,
      (foundIn inner.leaves).lookup field = inner.value? field := by
    intro field isField
    exact lookup_fields fits [] isField (by simp [Part.blocks])
  simp (disch := decide) only [Parent.ofFields, field]

theorem properties_found :
    (found document.content).properties = document.written.properties := by
  have inside := insides_part document.fits (by decide : "properties" ∈ readNames) (by decide)
  simp only [found, inside, written]
  congr 2
  apply Option.map_congr
  intro inner isProperties
  exact pairs_properties (Part.admits_of_block? document.fits .properties (by decide) isProperties)

theorem modules_found : (found document.content).modules = document.written.modules := by
  have fits : Part.project.admits document.outside = true :=
    admits_withoutAll document.fits innerNames
  have isPart : Part.project.blocks.lookup "modules" = some .modules := by decide
  have kept : document.outside.blocksNamed "modules" = document.content.blocksNamed "modules" :=
    blocksNamed_withoutAll document.fits (by decide) (by decide) isPart (by decide)
  have other : ∀ block ∈ document.outside.blocks, block.1.text ≠ "modules" →
      modulesIn block.2.leaves = [] := by
    intro block member apart
    obtain ⟨inside, isBlock, _, fitsInner⟩ := Part.admits_of_mem_blocks fits member
    have unreached : ∀ entry ∈ Part.project.blocks, entry.1 ≠ "modules" →
        "module" ∉ entry.2.reach := by decide
    exact modulesIn_eq_nil (Part.not_mentions fitsInner (by decide) (unreached _ isBlock apart))
  have found : moduleNames ((root document.outside).text false) = document.written.modules := by
    rw [moduleNames_root fits, modulesIn_leaves fits (by decide),
      flatMap_blocks (fun inner => modulesIn inner.leaves) other, kept,
      flatMap_of_length_le_one document.modulesOnce, written]
    congr 1
    apply Option.map_congr
    intro inner isModules
    exact modulesIn_modules (Part.admits_of_block? document.fits .modules isPart isModules)
  exact found

theorem insides_dependency :
    (document.content.without "dependencyManagement").insides "dependency" =
      (document.content.blocksNamed "dependencies").flatMap (Content.insides "dependency") := by
  have fits := Part.admits_without document.fits "dependencyManagement"
  have isPart : Part.project.blocks.lookup "dependencies" = some .dependencies := by decide
  have other : ∀ block ∈ (document.content.without "dependencyManagement").blocks,
      block.1.text ≠ "dependencies" → block.2.insides "dependency" = [] := by
    intro block member apart
    obtain ⟨inside, isBlock, _, fitsInner⟩ := Part.admits_of_mem_blocks fits member
    have unreached : ∀ entry ∈ Part.project.blocks, entry.1 ≠ "dependencies" →
        entry.1 ≠ "dependencyManagement" → "dependency" ∉ entry.2.reach := by decide
    have gone : block.1.text ≠ "dependencyManagement" := (mem_blocks_without member).1
    exact Content.insides_of_not_mentions
      (Part.not_mentions fitsInner (by decide) (unreached _ isBlock apart gone))
  have kept := blocksNamed_without document.fits (by decide : "dependencyManagement" ∈ readNames)
    (by decide) isPart (by decide)
  rw [Content.insides_eq_flatMap, ← kept, ← flatMap_blocks _ other]
  apply List.flatMap_congr
  intro block member
  obtain ⟨inside, isBlock, _⟩ := Part.admits_of_mem_blocks fits member
  have apart : ∀ entry ∈ Part.project.blocks, entry.1 ≠ "dependency" := by decide
  rw [if_neg (apart _ isBlock)]

theorem dependencies_found :
    (found document.content).dependencies = document.written.dependencies := by
  rw [found, insides_dependency, flatMap_of_length_le_one document.dependenciesOnce, written]
  cases isList : document.content.block? "dependencies" with
  | none =>
      rw [Content.block?] at isList
      rw [isList]
      rfl
  | some list =>
      have fitsList := Part.admits_of_block? document.fits .dependencies (by decide) isList
      have declared := insides_dependencies fitsList
      rw [Content.block?] at isList
      rw [isList, Option.map_some, Option.getD_some, Option.map_some, Option.getD_some, ← declared,
        List.filter_eq_self, declared]
      intro dependency member
      rw [(complete_declarations fitsList dependency member).1]
      rfl

/-- What reading by pattern finds in a plain descriptor is what the descriptor states. -/
theorem scrape_text : scrape document.text = document.written := by
  have found : scrape document.text = found document.content :=
    scrape_document fun _ => Part.separate document.fits
  have parent := document.parent_found
  have properties := document.properties_found
  have dependencies := document.dependencies_found
  have modules := document.modules_found
  have outside {field : String} (isField : field ∈ Part.project.leaves) :
      (foundIn (withoutAll innerNames document.content).leaves).lookup field =
        document.content.value? field :=
    document.lookup_outside isField
  rw [found]
  simp only [Descriptor.found] at parent properties dependencies modules ⊢
  simp (disch := decide) only [outside, parent, properties, dependencies, modules]
  rfl

/-- Both readers agree on a plain descriptor whose tags are all closed, up to the versions
that are inherited from its dependency management.  Wherever tags that no reader looks for
are put into it and left open, reading falls back on the pattern and finds the same. -/
theorem readers_agree (plain : Document) (closed : plain.content.unclosedCount = 0) :
    read plain.text = (plain.managed, .structural) ∧ scrape plain.text = plain.written ∧
      ∀ broken : Document, broken.content.mended = plain.content →
        broken.content.unclosedCount ≠ 0 →
          read broken.text = (scrape plain.text, .scraped) := by
  refine ⟨?_, plain.scrape_text, ?_⟩
  · rw [read, parse?_text, if_pos closed]
  · intro broken mends opened
    have same : broken.mended = plain := Document.ext mends
    rw [read, parse?_text, if_neg opened, scrape_text, scrape_text, ← same, written_mended]

/-! ### A descriptor with a managed version -/

namespace Sample

/-- Leaves that state the group and the artifact of a module. -/
def named (rest : Content) : Content :=
  .leaf ⟨[], rfl⟩ ⟨"groupId".toList, by decide, by decide⟩
    ⟨"org".toList, by decide, by decide, by decide⟩ <|
  .leaf ⟨[], rfl⟩ ⟨"artifactId".toList, by decide, by decide⟩
    ⟨"lib".toList, by decide, by decide, by decide⟩ rest

/-- A list of one dependency. -/
def dependencies (version rest : Content) : Content :=
  .block ⟨[], rfl⟩ ⟨"dependencies".toList, by decide, by decide⟩
    (.block ⟨[], rfl⟩ ⟨"dependency".toList, by decide, by decide⟩ (named version)
      (.last ⟨[], rfl⟩)) rest

/-- A module with the dependency whose version its management states. -/
def project (ending : Content) : Content :=
  named <| .block ⟨[' '], rfl⟩ ⟨"dependencyManagement".toList, by decide, by decide⟩
    (dependencies (.leaf ⟨[], rfl⟩ ⟨"version".toList, by decide, by decide⟩
      ⟨"1.2".toList, by decide, by decide, by decide⟩ (.last ⟨[], rfl⟩)) (.last ⟨[], rfl⟩)) <|
  dependencies (.last ⟨[], rfl⟩) ending

/-- The module as it should be written. -/
def plain : Document where
  content := project (.last ⟨[' '], rfl⟩)
  fits := by decide
  modulesOnce := by decide
  dependenciesOnce := by decide

/-- The module with a tag that is left open. -/
def broken : Document where
  content := project (.unclosed ⟨[], rfl⟩ ⟨"note".toList, by decide, by decide⟩
    (.last ⟨[' '], rfl⟩))
  fits := by decide
  modulesOnce := by decide
  dependenciesOnce := by decide

end Sample

theorem readers_agree_sample :
    Sample.plain.content.unclosedCount = 0 ∧
      read Sample.plain.text = (Sample.plain.managed, .structural) ∧
      read Sample.broken.text = (Sample.plain.written, .scraped) := by
  have closed : Sample.plain.content.unclosedCount = 0 := by decide
  obtain ⟨structural, pattern, fallback⟩ := readers_agree Sample.plain closed
  exact ⟨closed, structural, pattern ▸ fallback Sample.broken rfl (by decide)⟩

end Document
end ClassAtlas.Descriptor
