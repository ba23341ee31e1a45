import ClassAtlas.Descriptor.Scrape
import ClassAtlas.Proofs.Markup.Content

/-!
# Plain descriptors

A plain descriptor is written with the elements that belong in each part of it and with
no others that a reader looks for.  `Part.admits` lays down which elements those are.
What a plain descriptor states can be told from its content without reading any text:
`Document.written` does so, and `Document.managed` adds the versions that its dependency
management states.
-/

namespace ClassAtlas.Descriptor

open Markup (Name Content)

/-- The names of the elements that a reader looks for. -/
def readNames : List String :=
  ["project", "parent", "groupId", "artifactId", "version", "packaging", "properties",
    "modules", "module", "dependencyManagement", "dependencies", "dependency", "scope",
    "classifier", "type", "systemPath", "optional", "exclusions", "build", "profiles"]

/-- A name that no reader looks for. -/
def isUnread (name : Name) : Bool := !readNames.contains name.text

/-- A character of a property's name. -/
def isPropertyPart (character : Char) : Bool :=
  Text.isAsciiLetter character || Text.isAsciiDigit character || character == '_' ||
    character == '.' || character == '-'

/-- A letter or an underscore, then letters, digits, underscores, dots and hyphens. -/
def isPropertyName : List Char → Bool
  | [] => false
  | first :: others =>
      (Text.isAsciiLetter first || first == '_') && others.all isPropertyPart

/-- A part of a descriptor with elements of its own. -/
inductive Part where
  | project
  | parent
  | properties
  | modules
  | management
  | dependencies
  | dependency
  | exclusions
  | exclusion
  deriving DecidableEq, Repr

namespace Part

/-- The leaves that have a meaning in a part. -/
def leaves : Part → List String
  | project => ["groupId", "artifactId", "version", "packaging"]
  | parent => ["groupId", "artifactId", "version"]
  | modules => ["module"]
  | dependency =>
      ["groupId", "artifactId", "version", "scope", "classifier", "type", "systemPath",
        "optional"]
  | exclusion => ["groupId", "artifactId"]
  | properties | management | dependencies | exclusions => []

/-- The blocks that a part may hold, with the part that each of them is. -/
def blocks : Part → List (String × Part)
  | project =>
      [("parent", parent), ("properties", properties), ("modules", modules),
        ("dependencyManagement", management), ("dependencies", dependencies)]
  | management => [("dependencies", dependencies)]
  | dependencies => [("dependency", dependency)]
  | dependency => [("exclusions", exclusions)]
  | exclusions => [("exclusion", exclusion)]
  | parent | properties | modules | exclusion => []

/-- Other leaves may stand in some parts; those of the properties need plain names. -/
def admitsOther (part : Part) (name : Name) : Bool :=
  isUnread name &&
    match part with
    | project | parent => true
    | properties => isPropertyName name.letters
    | _ => false

/-- What a part must state. -/
def complete (part : Part) (content : Content) : Bool :=
  part != dependency ||
    (content.value? "groupId").isSome && (content.value? "artifactId").isSome

/-- The content is that of this part of a plain descriptor. -/
def admits : Part → Content → Bool
  | _, .last _ => true
  | part, .remark _ _ rest => part.admits rest
  | part, .unclosed _ name rest => isUnread name && part.admits rest
  | part, .leaf _ name _ rest =>
      (part.leaves.contains name.text || part.admitsOther name) && part.admits rest
  | part, .block _ name inner rest =>
      (part.blocks.lookup name.text).any (fun inside =>
        inside.complete inner && inside.admits inner) && part.admits rest

/-! ### What stands where -/

/-- The names that may stand in a part, on whichever level, other than unread ones. -/
def reach : Part → List String
  | project => readNames ++ ["exclusion"]
  | management => ["dependencies", "dependency", "exclusions", "exclusion"] ++ leaves dependency
  | dependencies => ["dependency", "exclusions", "exclusion"] ++ leaves dependency
  | dependency => ["exclusions", "exclusion"] ++ leaves dependency
  | exclusions => "exclusion" :: leaves exclusion
  | parent => leaves parent
  | modules => leaves modules
  | exclusion => leaves exclusion
  | properties => []

theorem leaves_subset_reach (part : Part) : part.leaves ⊆ part.reach := by
  cases part <;> decide

theorem blocks_reach (part : Part) :
    ∀ entry ∈ part.blocks, entry.1 ∈ part.reach ∧ entry.2.reach ⊆ part.reach := by
  cases part <;> decide

variable {part : Part} {name : Name} {inner content : Content}

theorem ne_of_isUnread (unread : isUnread name = true) {read : String}
    (isRead : read ∈ readNames) : name.text ≠ read := by
  intro equal
  rw [isUnread, equal, List.contains_iff_mem.2 isRead] at unread
  cases unread

/-- A leaf of a part has a meaning there, or no reader looks for it. -/
theorem admits_leaf (fits : (part.leaves.contains name.text || part.admitsOther name) = true) :
    name.text ∈ part.leaves ∨ isUnread name = true := by
  rw [Bool.or_eq_true] at fits
  rcases fits with known | other
  · exact .inl (List.contains_iff_mem.1 known)
  · unfold admitsOther at other
    exact .inr (Bool.and_eq_true_iff.1 other).1

/-- A block of a part is one that the part may hold. -/
theorem admits_block (fits : (part.blocks.lookup name.text).any (fun inside =>
      inside.complete inner && inside.admits inner) = true) :
    ∃ inside, (name.text, inside) ∈ part.blocks ∧ inside.complete inner = true ∧
      inside.admits inner = true := by
  rw [Option.any_eq_true] at fits
  obtain ⟨inside, found, good⟩ := fits
  rw [Bool.and_eq_true] at good
  obtain ⟨before, after, shape, _⟩ := List.lookup_eq_some_iff.1 found
  exact ⟨inside, by rw [shape]; simp, good⟩

/-- What does not belong in a part is not mentioned there. -/
theorem not_mentions (fits : part.admits content = true) {read : String}
    (isRead : read ∈ readNames) (far : read ∉ part.reach) : ¬content.Mentions read := by
  induction content generalizing part with
  | last spaces => exact id
  | remark spaces comment rest ih => exact ih fits far
  | unclosed spaces own rest ih =>
      rw [admits, Bool.and_eq_true] at fits
      exact not_or.2 ⟨ne_of_isUnread fits.1 isRead, ih fits.2 far⟩
  | leaf spaces own value rest ih =>
      rw [admits, Bool.and_eq_true] at fits
      refine not_or.2 ⟨?_, ih fits.2 far⟩
      rcases admits_leaf fits.1 with known | unread
      · exact fun equal => far (part.leaves_subset_reach (equal ▸ known))
      · exact ne_of_isUnread unread isRead
  | block spaces own inner rest innerIH ih =>
      rw [admits, Bool.and_eq_true] at fits
      obtain ⟨inside, member, _, inner⟩ := admits_block fits.1
      obtain ⟨near, closed⟩ := part.blocks_reach _ member
      exact not_or.2 ⟨fun equal => far (equal ▸ near),
        not_or.2 ⟨innerIH inner fun deep => far (closed deep), ih fits.2 far⟩⟩

/-- The names of blocks that a reader by pattern looks for. -/
def blockNames : List String :=
  ["parent", "properties", "dependencyManagement", "dependencies", "dependency", "exclusions",
    "build", "profiles"]

theorem blockNames_subset_readNames : blockNames ⊆ readNames := by decide

theorem leaves_disjoint_blockNames (part : Part) : ∀ name ∈ part.leaves, name ∉ blockNames := by
  cases part <;> decide

theorem leaves_disjoint_blocks (part : Part) :
    ∀ name ∈ part.leaves, ∀ entry ∈ part.blocks, entry.1 ≠ name := by
  cases part <;> decide

theorem blocks_not_nested (part : Part) : ∀ entry ∈ part.blocks, entry.1 ∉ entry.2.reach := by
  cases part <;> decide

/-- Blocks of one name stand apart from each other, and nothing else has their name. -/
theorem separate (fits : part.admits content = true) {block : String}
    (isBlock : block ∈ blockNames) : content.Separate block := by
  have isRead := blockNames_subset_readNames isBlock
  induction content generalizing part with
  | last spaces => trivial
  | remark spaces comment rest ih => exact ih fits
  | unclosed spaces own rest ih =>
      rw [admits, Bool.and_eq_true] at fits
      exact ⟨ne_of_isUnread fits.1 isRead, ih fits.2⟩
  | leaf spaces own value rest ih =>
      rw [admits, Bool.and_eq_true] at fits
      refine ⟨?_, ih fits.2⟩
      rcases admits_leaf fits.1 with known | unread
      · exact fun equal => part.leaves_disjoint_blockNames _ known (equal ▸ isBlock)
      · exact ne_of_isUnread unread isRead
  | block spaces own inner rest innerIH ih =>
      rw [admits, Bool.and_eq_true] at fits
      obtain ⟨inside, member, _, fitsInner⟩ := admits_block fits.1
      refine ⟨?_, ih fits.2⟩
      split
      · rename_i same
        exact not_mentions fitsInner isRead (same ▸ part.blocks_not_nested _ member)
      · exact innerIH fitsInner

/-- The blocks of a part are parts themselves. -/
theorem admits_of_mem_blocks (fits : part.admits content = true) {block : Name × Content}
    (member : block ∈ content.blocks) :
    ∃ inside, (block.1.text, inside) ∈ part.blocks ∧ inside.complete block.2 = true ∧
      inside.admits block.2 = true := by
  induction content with
  | last spaces => cases member
  | remark spaces comment rest ih => exact ih fits member
  | unclosed spaces own rest ih =>
      rw [admits, Bool.and_eq_true] at fits
      exact ih fits.2 member
  | leaf spaces own value rest ih =>
      rw [admits, Bool.and_eq_true] at fits
      exact ih fits.2 member
  | block spaces own inner rest innerIH ih =>
      rw [admits, Bool.and_eq_true] at fits
      rcases List.mem_cons.1 member with same | later
      · exact same ▸ admits_block fits.1
      · exact ih fits.2 later

theorem blocks_eq_nil (fits : part.admits content = true) (flat : part.blocks = []) :
    content.blocks = [] := by
  apply List.eq_nil_iff_forall_not_mem.2
  intro block member
  obtain ⟨inside, isBlock, _⟩ := admits_of_mem_blocks fits member
  rw [flat] at isBlock
  cases isBlock

theorem lookup_blocks (part : Part) :
    ∀ entry ∈ part.blocks, part.blocks.lookup entry.1 = some entry.2 := by
  cases part <;> decide

/-- The blocks of a name are the part that has this name. -/
theorem admits_of_mem_blocksNamed (fits : part.admits content = true) {block : String}
    (inside : Part) (isPart : part.blocks.lookup block = some inside)
    (member : inner ∈ content.blocksNamed block) :
    inside.complete inner = true ∧ inside.admits inner = true := by
  obtain ⟨entry, found, rfl⟩ := List.mem_map.1 member
  obtain ⟨isBlock, named⟩ := List.mem_filter.1 found
  have same : entry.1.text = block := of_decide_eq_true named
  obtain ⟨other, isOther, good⟩ := admits_of_mem_blocks fits isBlock
  have found := part.lookup_blocks _ isOther
  rw [same, isPart] at found
  exact Option.some.inj found ▸ good

theorem admits_of_block? (fits : part.admits content = true) {block : String}
    (inside : Part) (isPart : part.blocks.lookup block = some inside)
    (found : content.block? block = some inner) : inside.admits inner = true :=
  (admits_of_mem_blocksNamed fits inside isPart (List.mem_of_head? found)).2

/-- The leaves of content without blocks belong in its part. -/
theorem admits_of_mem_leaves (fits : part.admits content = true) (flat : content.blocks = [])
    {leaf : Name × Markup.Value} (member : leaf ∈ content.leaves) :
    (part.leaves.contains leaf.1.text || part.admitsOther leaf.1) = true := by
  induction content with
  | last spaces => cases member
  | remark spaces comment rest ih => exact ih fits flat member
  | unclosed spaces own rest ih =>
      rw [admits, Bool.and_eq_true] at fits
      exact ih fits.2 flat member
  | leaf spaces own value rest ih =>
      rw [admits, Bool.and_eq_true] at fits
      rcases List.mem_cons.1 member with same | later
      · exact same ▸ fits.1
      · exact ih fits.2 flat later
  | block spaces own inner rest innerIH ih => cases flat

/-- The leaves of the modules are all named for what they state. -/
theorem module_of_mem_leaves (fits : modules.admits content = true)
    {leaf : Name × Markup.Value} (member : leaf ∈ content.leaves) : leaf.1.text = "module" := by
  have belongs := admits_of_mem_leaves fits (blocks_eq_nil fits rfl) member
  simpa [leaves, admitsOther] using belongs

@[simp] theorem admits_prepend (spaces : Markup.Spaces) :
    part.admits (content.prepend spaces) = part.admits content := by
  cases content <;> rfl

theorem complete_congr {left right : Content}
    (same : ∀ name, left.value? name = right.value? name) :
    part.complete left = part.complete right := by
  rw [complete, complete, same, same]

/-- A part stays one when blocks are removed from it. -/
theorem admits_without (fits : part.admits content = true) (block : String) :
    part.admits (content.without block) = true := by
  induction content generalizing part with
  | last spaces => rfl
  | remark spaces comment rest ih => exact ih fits
  | unclosed spaces own rest ih =>
      rw [admits, Bool.and_eq_true] at fits
      rw [Content.without, admits, Bool.and_eq_true]
      exact ⟨fits.1, ih fits.2⟩
  | leaf spaces own value rest ih =>
      rw [admits, Bool.and_eq_true] at fits
      rw [Content.without, admits, Bool.and_eq_true]
      exact ⟨fits.1, ih fits.2⟩
  | block spaces own inner rest innerIH ih =>
      rw [admits, Bool.and_eq_true, Option.any_eq_true] at fits
      obtain ⟨⟨inside, found, good⟩, later⟩ := fits
      rw [Bool.and_eq_true] at good
      rw [Content.without]
      split
      · rw [admits_prepend]
        exact ih later
      · rw [admits, Bool.and_eq_true, Option.any_eq_true]
        refine ⟨⟨inside, found, ?_⟩, ih later⟩
        rw [complete_congr fun name => Content.value?_without name inner, good.1,
          innerIH good.2]
        rfl

/-- A part stays one when its unclosed tags are taken out. -/
theorem admits_mended (fits : part.admits content = true) :
    part.admits content.mended = true := by
  induction content generalizing part with
  | last spaces => rfl
  | remark spaces comment rest ih => exact ih fits
  | unclosed spaces own rest ih =>
      rw [admits, Bool.and_eq_true] at fits
      rw [Content.mended, admits_prepend]
      exact ih fits.2
  | leaf spaces own value rest ih =>
      rw [admits, Bool.and_eq_true] at fits
      rw [Content.mended, admits, Bool.and_eq_true]
      exact ⟨fits.1, ih fits.2⟩
  | block spaces own inner rest innerIH ih =>
      rw [admits, Bool.and_eq_true, Option.any_eq_true] at fits
      obtain ⟨⟨inside, found, good⟩, later⟩ := fits
      rw [Bool.and_eq_true] at good
      rw [Content.mended, admits, Bool.and_eq_true, Option.any_eq_true]
      refine ⟨⟨inside, found, ?_⟩, ih later⟩
      rw [complete_congr fun name => Content.value?_mended inner name, good.1, innerIH good.2]
      rfl

end Part

/-- The dependency that the content of an element declares. -/
def Declared.written (content : Content) : Declared where
  group := content.value? "groupId"
  artifact := content.value? "artifactId"
  version := content.value? "version"
  scope := content.value? "scope"
  classifier := content.value? "classifier"
  type := content.value? "type"
  systemPath := content.value? "systemPath"
  optional := isTrue (content.value? "optional")

/-- The dependencies that the content of a list declares. -/
def declarations (content : Content) : List Declared :=
  (content.blocksNamed "dependency").map Declared.written

/-- The dependency with the version that was last stated for its group and artifact,
where it has none of its own. -/
def Declared.inherit (management : List Declared) (declared : Declared) : Declared :=
  { declared with
    version := declared.version.orElse fun _ =>
      ((management.filter fun other =>
        other.group == declared.group && other.artifact == declared.artifact).filterMap
          (·.version)).getLast? }

/-- The name of the root element. -/
def projectName : Name := ⟨"project".toList, by decide, by decide⟩

/-- A plain descriptor, with or without unclosed tags. -/
@[ext]
structure Document where
  content : Content
  fits : Part.project.admits content = true
  modulesOnce : (content.blocksNamed "modules").length ≤ 1
  dependenciesOnce : (content.blocksNamed "dependencies").length ≤ 1

namespace Document

/-- The descriptor without its unclosed tags. -/
def mended (document : Document) : Document where
  content := document.content.mended
  fits := Part.admits_mended document.fits
  modulesOnce := by
    rw [Content.blocksNamed_mended, List.length_map]
    exact document.modulesOnce
  dependenciesOnce := by
    rw [Content.blocksNamed_mended, List.length_map]
    exact document.dependenciesOnce

/-- The descriptor as it is written. -/
def text (document : Document) : List Char := document.content.document projectName

/-- What the descriptor states. -/
def written (document : Document) : Descriptor where
  group := document.content.value? "groupId"
  artifact := document.content.value? "artifactId"
  version := document.content.value? "version"
  packaging := document.content.value? "packaging"
  parent := (document.content.block? "parent").map fun parent =>
    { group := parent.value? "groupId"
      artifact := parent.value? "artifactId"
      version := parent.value? "version" }
  properties := KeyedTable.ofList
    (((document.content.block? "properties").map fun properties =>
      properties.leaves.map fun (name, value) => (name.text, value.text)).getD [])
  dependencies := ((document.content.block? "dependencies").map declarations).getD []
  modules := ((document.content.block? "modules").map fun modules =>
    modules.leaves.map fun (_, value) => value.text).getD []

/-- What the dependency management declares. -/
def management (document : Document) : List Declared :=
  (((document.content.block? "dependencyManagement").bind (·.block? "dependencies")).map
    declarations).getD []

/-- What the descriptor states together with its dependency management. -/
def managed (document : Document) : Descriptor :=
  { document.written with
    dependencies := document.written.dependencies.map (Declared.inherit document.management) }

theorem declarations_mended (content : Content) :
    declarations content.mended = declarations content := by
  rw [declarations, Content.blocksNamed_mended, List.map_map, declarations]
  congr 1
  funext inner
  simp [Declared.written]

/-- Unclosed tags state nothing. -/
theorem written_mended (document : Document) : document.mended.written = document.written := by
  simp only [written, mended, Content.value?_mended, Content.block?_mended, Option.map_map,
    Function.comp_def, Content.leaves_mended, declarations_mended]

end Document
end ClassAtlas.Descriptor
