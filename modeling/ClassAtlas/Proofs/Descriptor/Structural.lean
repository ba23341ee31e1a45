import ClassAtlas.Proofs.Descriptor.Document
import ClassAtlas.Proofs.Markup.Reading

/-!
# Plain descriptors read as documents

What is taken from the tree of a plain descriptor is what its content states.  A look-up
among the children of an element is one in the content: a leaf is found by the name of
a field, and a block by the name of a part.
-/

namespace ClassAtlas.Descriptor

open Markup

variable {part : Part} {content : Content}

theorem withoutForeignEntities_of_not_mem {text : List Char} (absent : '&' ∉ text) :
    withoutForeignEntities text = text := by
  induction text with
  | nil => rw [withoutForeignEntities]
  | cons character rest ih =>
      obtain ⟨other, later⟩ := not_or.1 (mt List.mem_cons.2 absent)
      rw [withoutForeignEntities]
      · rw [ih later]
      · exact fun equal => other equal.symm

/-! ## Children -/

/-- The elements for which the content stands. -/
def elements : Content → List Node
  | .last _ => []
  | .remark _ _ rest => elements rest
  | .unclosed _ _ rest => elements rest
  | .leaf _ name value rest => .element name.text [.text value.text] :: elements rest
  | .block _ name inner rest => .element name.text inner.nodes :: elements rest

/-- Spaces and comments are passed over by what selects elements only. -/
theorem filterMap_nodes {Found : Type} (select : Node → Option Found)
    (noText : ∀ text, select (.text text) = none) (noRemark : select .remark = none)
    (content : Content) :
    content.nodes.filterMap select = (elements content).filterMap select := by
  have skip : ∀ spaces : Spaces, spaces.nodes.filterMap select = [] := by
    intro spaces
    rw [Spaces.nodes]
    split
    · rfl
    · rw [List.filterMap_cons_none (noText _), List.filterMap_nil]
  induction content with
  | last spaces => exact skip spaces
  | remark spaces comment rest ih =>
      rw [Content.nodes, List.filterMap_append, skip, List.filterMap_cons_none noRemark, ih]
      rfl
  | unclosed spaces name rest ih =>
      rw [Content.nodes, List.filterMap_append, skip, ih]
      rfl
  | leaf spaces name value rest ih =>
      rw [Content.nodes, List.filterMap_append, skip, elements, List.filterMap_cons, ih,
        List.filterMap_cons]
      rfl
  | block spaces name inner rest innerIH ih =>
      rw [Content.nodes, List.filterMap_append, skip, elements, List.filterMap_cons, ih,
        List.filterMap_cons]
      rfl

theorem filter_nodes (name : String) (content : Content) :
    content.nodes.filter (Node.isElement name) =
      (elements content).filter (Node.isElement name) := by
  have nodes := filterMap_nodes (Option.guard (Node.isElement name)) (fun _ => rfl) rfl content
  rwa [List.filterMap_eq_filter] at nodes

/-- The children of the name of a field are leaves. -/
theorem find?_leaf (fits : part.admits content = true) {field : String}
    (noBlock : ∀ entry ∈ part.blocks, entry.1 ≠ field) :
    content.nodes.find? (Node.isElement field) =
      (content.value? field).map fun text => .element field [.text text] := by
  rw [← List.head?_filter, filter_nodes, List.head?_filter]
  induction content with
  | last spaces => rfl
  | remark spaces comment rest ih => exact ih fits
  | unclosed spaces own rest ih =>
      rw [Part.admits, Bool.and_eq_true] at fits
      exact ih fits.2
  | leaf spaces own value rest ih =>
      rw [Part.admits, Bool.and_eq_true] at fits
      rw [elements, Content.value?]
      by_cases same : own.text = field
      · rw [List.find?_cons_of_pos (by simp [Node.isElement, same]), if_pos same, same]
        rfl
      · rw [List.find?_cons_of_neg (by simp [Node.isElement, same]), if_neg same, ih fits.2]
  | block spaces own inner rest innerIH ih =>
      rw [Part.admits, Bool.and_eq_true] at fits
      obtain ⟨inside, member, _⟩ := Part.admits_block fits.1
      have apart := noBlock _ member
      rw [elements, List.find?_cons_of_neg (by simp [Node.isElement, apart]), ih fits.2]
      rfl

/-- The text of a child is the value of the leaf. -/
theorem childText?_content (fits : part.admits content = true) (name : String) {field : String}
    (noBlock : ∀ entry ∈ part.blocks, entry.1 ≠ field) :
    childText? (.element name content.nodes) field = content.value? field := by
  rw [childText?, Node.child?, Node.children, find?_leaf fits noBlock]
  cases stated : content.value? field with
  | none => rfl
  | some text =>
      obtain ⟨value, rfl⟩ := Content.exists_value stated
      simp [Node.leadingText?, Node.children, value.trimmed_text, Option.filter,
        value.isEmpty_text]

/-- The children of the name of a part are blocks. -/
theorem filter_blocks (fits : part.admits content = true) {name : String}
    (isRead : name ∈ readNames) (noLeaf : name ∉ part.leaves) :
    content.nodes.filter (Node.isElement name) =
      (content.blocksNamed name).map fun inner => .element name inner.nodes := by
  rw [filter_nodes]
  induction content with
  | last spaces => rfl
  | remark spaces comment rest ih => exact ih fits
  | unclosed spaces own rest ih =>
      rw [Part.admits, Bool.and_eq_true] at fits
      exact ih fits.2
  | leaf spaces own value rest ih =>
      rw [Part.admits, Bool.and_eq_true] at fits
      have apart : own.text ≠ name := by
        rcases Part.admits_leaf fits.1 with known | unread
        · exact fun equal => noLeaf (equal ▸ known)
        · exact Part.ne_of_isUnread unread isRead
      rw [elements, List.filter_cons_of_neg (by simp [Node.isElement, apart]), ih fits.2]
      rfl
  | block spaces own inner rest innerIH ih =>
      rw [Part.admits, Bool.and_eq_true] at fits
      rw [elements, Content.blocksNamed, Content.blocks]
      by_cases same : own.text = name
      · rw [List.filter_cons_of_pos (by simp [Node.isElement, same]),
          List.filter_cons_of_pos (by simp [same]), ih fits.2, same]
        rfl
      · rw [List.filter_cons_of_neg (by simp [Node.isElement, same]),
          List.filter_cons_of_neg (by simp [same]), ih fits.2]
        rfl

theorem child?_block (fits : part.admits content = true) (own : String) {name : String}
    (isRead : name ∈ readNames) (noLeaf : name ∉ part.leaves) :
    (Node.element own content.nodes).child? name =
      (content.block? name).map fun inner => .element name inner.nodes := by
  rw [Node.child?, Node.children, ← List.head?_filter, filter_blocks fits isRead noLeaf,
    List.head?_map, Content.block?]

/-- The elements of content without blocks are its leaves. -/
theorem elements_of_flat (flat : content.blocks = []) :
    elements content = content.leaves.map fun leaf =>
      .element leaf.1.text [.text leaf.2.text] := by
  induction content with
  | last spaces => rfl
  | remark spaces comment rest ih => exact ih flat
  | unclosed spaces own rest ih => exact ih flat
  | leaf spaces own value rest ih => rw [elements, ih flat, Content.leaves, List.map_cons]
  | block spaces own inner rest innerIH ih => cases flat

/-- Each leaf of the properties states a property. -/
theorem filterMap_property? (flat : content.blocks = []) :
    content.nodes.filterMap property? =
      content.leaves.map fun leaf => (leaf.1.text, leaf.2.text) := by
  rw [filterMap_nodes property? (fun _ => rfl) rfl, elements_of_flat flat, List.filterMap_map,
    ← List.filterMap_eq_map]
  apply List.filterMap_congr
  intro leaf member
  simp [property?, Node.leadingText?, Node.children, leaf.2.trimmed_text]

/-- Each leaf of the modules states a module. -/
theorem filterMap_moduleName? (fits : Part.modules.admits content = true) :
    (content.nodes.filter (Node.isElement "module")).filterMap moduleName? =
      content.leaves.map fun leaf => leaf.2.text := by
  have flat : content.blocks = [] := Part.blocks_eq_nil fits rfl
  have every : ∀ node ∈ elements content, Node.isElement "module" node = true := by
    rw [elements_of_flat flat]
    intro node member
    obtain ⟨leaf, isLeaf, rfl⟩ := List.mem_map.1 member
    simp [Node.isElement, Part.module_of_mem_leaves fits isLeaf]
  rw [filter_nodes, List.filter_eq_self.2 every, elements_of_flat flat, List.filterMap_map,
    ← List.filterMap_eq_map]
  apply List.filterMap_congr
  intro leaf member
  simp [moduleName?, Node.leadingText?, Node.children, leaf.2.trimmed_text, Option.filter,
    leaf.2.isEmpty_text]

/-! ## Parts -/

theorem childText?_field (fits : part.admits content = true) (name : String) {field : String}
    (isField : field ∈ part.leaves) :
    childText? (.element name content.nodes) field = content.value? field :=
  childText?_content fits name (part.leaves_disjoint_blocks field isField)

theorem declared_ofNode (fits : Part.dependency.admits content = true) (name : String) :
    Declared.ofNode (.element name content.nodes) = Declared.written content := by
  simp (disch := decide) only [Declared.ofNode, Declared.written, childText?_field fits]

theorem parent_ofNode (fits : Part.parent.admits content = true) (name : String) :
    Parent.ofNode (.element name content.nodes) =
      { group := content.value? "groupId"
        artifact := content.value? "artifactId"
        version := content.value? "version" } := by
  simp (disch := decide) only [Parent.ofNode, childText?_field fits]

theorem declarations_ofNodes (fits : Part.dependencies.admits content = true) :
    (content.nodes.filter (Node.isElement "dependency")).map Declared.ofNode =
      declarations content := by
  rw [filter_blocks fits (by decide) (by decide), List.map_map, declarations]
  apply List.map_congr_left
  intro inner member
  have good := Part.admits_of_mem_blocksNamed fits .dependency (by decide) member
  exact declared_ofNode good.2 "dependency"

/-- The dependencies of a part are those that its list declares. -/
theorem dependenciesOf_content (fits : part.admits content = true)
    (noLeaf : "dependencies" ∉ part.leaves)
    (isPart : part.blocks.lookup "dependencies" = some .dependencies)
    (name : String) :
    dependenciesOf (.element name content.nodes) =
      ((content.block? "dependencies").map declarations).getD [] := by
  rw [dependenciesOf, child?_block fits name (by decide) noLeaf]
  cases found : content.block? "dependencies" with
  | none => rfl
  | some list =>
      exact declarations_ofNodes (Part.admits_of_block? fits .dependencies isPart found)

/-! ## Managed versions -/

theorem versions_managed (management : List Declared) (group artifact : String) :
    ((management.filterMap Managed.of?).filter fun entry =>
      entry.group == group && entry.artifact == artifact).map (·.version) =
    (management.filter fun other =>
      other.group == some group && other.artifact == some artifact).filterMap (·.version) := by
  induction management with
  | nil => rfl
  | cons other rest ih =>
      cases stated : Managed.of? other with
      | none =>
          rw [List.filterMap_cons_none stated, ih, List.filter_cons]
          split
          · rename_i same
            simp only [Bool.and_eq_true, beq_iff_eq] at same
            have versionless : other.version = none := by
              cases version : other.version with
              | none => rfl
              | some text => simp [Managed.of?, same, version] at stated
            rw [List.filterMap_cons_none versionless]
          · rfl
      | some entry =>
          simp only [Managed.of?, Option.bind_eq_bind, Option.bind_eq_some_iff,
            Option.some.injEq] at stated
          obtain ⟨ownGroup, isGroup, ownArtifact, isArtifact, version, isVersion, rfl⟩ := stated
          have found : Managed.of? other = some ⟨ownGroup, ownArtifact, version⟩ := by
            simp [Managed.of?, isGroup, isArtifact, isVersion]
          rw [List.filterMap_cons_some found, List.filter_cons, List.filter_cons, isGroup,
            isArtifact]
          by_cases same : ownGroup = group ∧ ownArtifact = artifact
          · simp only [same.1, same.2, beq_self_eq_true, Bool.and_self, if_true, List.map_cons,
              List.filterMap_cons_some isVersion, ih]
          · have apart : ¬(ownGroup == group && ownArtifact == artifact) = true := by
              simpa using not_and.1 same
            have apart' : ¬(some ownGroup == some group && some ownArtifact == some artifact) =
                true := by
              simpa using not_and.1 same
            rw [if_neg apart, if_neg apart', ih]

/-- Of the managed versions, the last stated first, the first is the last. -/
theorem manage_eq_inherit {management : List Declared} {declared : Declared}
    (isGroup : declared.group.isSome) (isArtifact : declared.artifact.isSome) :
    declared.manage (management.filterMap Managed.of?).reverse = declared.inherit management := by
  obtain ⟨group, artifact, version, scope, classifier, type, systemPath, optional⟩ := declared
  obtain ⟨group, rfl⟩ := Option.isSome_iff_exists.1 isGroup
  obtain ⟨artifact, rfl⟩ := Option.isSome_iff_exists.1 isArtifact
  cases version with
  | some version => rfl
  | none =>
      simp only [Declared.manage, Declared.inherit]
      rw [← versions_managed, List.getLast?_map, ← List.head?_reverse, ← List.filter_reverse,
        List.head?_filter]
      rfl

/-! ## Descriptors -/

theorem complete_declarations (fits : Part.dependencies.admits content = true) :
    ∀ declared ∈ declarations content, declared.group.isSome ∧ declared.artifact.isSome := by
  intro declared member
  obtain ⟨inner, isBlock, rfl⟩ := List.mem_map.1 member
  have complete := (Part.admits_of_mem_blocksNamed fits .dependency (by decide) isBlock).1
  simpa [Part.complete, Declared.written] using complete

namespace Document

variable (document : Document)

theorem managedOf_project (name : String) :
    managedOf (.element name document.content.nodes) =
      (document.management.filterMap Managed.of?).reverse := by
  rw [managedOf, child?_block document.fits name (by decide) (by decide), management]
  cases found : document.content.block? "dependencyManagement" with
  | none => rfl
  | some list =>
      have fits := Part.admits_of_block? document.fits .management (by decide) found
      simp only [Option.map_some]
      rw [dependenciesOf_content fits (by decide) (by decide)]
      rfl

theorem parent_project (name : String) :
    ((Node.element name document.content.nodes).child? "parent").map Parent.ofNode =
      document.written.parent := by
  rw [child?_block document.fits name (by decide) (by decide), Option.map_map, written]
  apply Option.map_congr
  intro inner found
  have fits := Part.admits_of_block? document.fits .parent (by decide) found
  exact parent_ofNode fits "parent"

theorem properties_project (name : String) :
    KeyedTable.ofList (((((Node.element name document.content.nodes).child? "properties").map
      Node.children).getD []).filterMap property?) = document.written.properties := by
  rw [child?_block document.fits name (by decide) (by decide), written]
  cases found : document.content.block? "properties" with
  | none => rfl
  | some inner =>
      have fits := Part.admits_of_block? document.fits .properties (by decide) found
      have flat : inner.blocks = [] := Part.blocks_eq_nil fits rfl
      exact congrArg KeyedTable.ofList (filterMap_property? flat)

theorem modules_project (name : String) :
    ((((Node.element name document.content.nodes).child? "modules").map
      Node.children).getD [] |>.filter (Node.isElement "module")).filterMap moduleName? =
      document.written.modules := by
  rw [child?_block document.fits name (by decide) (by decide), written]
  cases found : document.content.block? "modules" with
  | none => rfl
  | some inner =>
      exact filterMap_moduleName? (Part.admits_of_block? document.fits .modules (by decide) found)

theorem dependencies_project (name : String) :
    (dependenciesOf (.element name document.content.nodes)).map
      (Declared.manage (managedOf (.element name document.content.nodes))) =
      document.managed.dependencies := by
  rw [dependenciesOf_content document.fits (by decide) (by decide),
    managedOf_project, managed, written]
  apply List.map_congr_left
  intro declared member
  cases found : document.content.block? "dependencies" with
  | none =>
      rw [found] at member
      cases member
  | some inner =>
      have fits := Part.admits_of_block? document.fits .dependencies (by decide) found
      rw [found] at member
      obtain ⟨group, artifact⟩ := complete_declarations fits declared member
      exact manage_eq_inherit group artifact

/-- The tree of a plain descriptor gives what the descriptor states, its managed versions
included. -/
theorem ofProject_nodes (name : String) :
    ofProject (.element name document.content.nodes) = document.managed := by
  have field : ∀ field ∈ Part.project.leaves,
      childText? (.element name document.content.nodes) field = document.content.value? field :=
    fun field => childText?_field document.fits name
  rw [ofProject, document.parent_project, document.properties_project, document.modules_project,
    document.dependencies_project]
  simp (disch := decide) only [field]
  rfl

/-- A plain descriptor is read as a document exactly when all its tags are closed. -/
theorem parse?_text :
    parse? document.text =
      if document.content.unclosedCount = 0 then some document.managed else none := by
  have clear : withoutForeignEntities document.text = document.text := by
    apply withoutForeignEntities_of_not_mem
    intro member
    exact absurd (Content.isClear_of_mem_document member) (by decide)
  rw [parse?, clear, text, Content.ofText?_document]
  split
  · have named : projectName.text = "project" := String.ofList_toList
    rw [Option.bind_some, ofDocument?, named, Node.find?]
    simp only [beq_self_eq_true, if_true, Option.map_some]
    rw [document.ofProject_nodes]
  · rfl

end Document

end ClassAtlas.Descriptor
