import ClassAtlas.Proofs.Descriptor.Document
import ClassAtlas.Proofs.Descriptor.Entities
import ClassAtlas.Proofs.Descriptor.Management

/-!
# What the tree of a descriptor is read for

Each part of a descriptor is read for the children of certain names, and only for them
(`Part.sought`).  A change among the children of a part that does not touch these is of no
consequence, at whichever depth of the tree it is made (`Change`).  Descriptors whose trees
differ by such changes are read alike (`parse?_local`).
-/

namespace ClassAtlas.Descriptor

open Markup (Node)

/-! ## Changes of no consequence -/

/-- The names for which the children of a part are looked through. -/
def Part.sought : Part → List String
  | project => leaves project ++
      ["parent", "properties", "modules", "dependencyManagement", "dependencies"]
  | parent => leaves parent
  | modules => leaves modules
  | management => ["dependencies"]
  | dependencies => ["dependency"]
  | dependency => leaves dependency
  | properties | exclusions | exclusion => []

/-- A child for which a part is not looked through: text, a remark, or an element of another name.
Every element of the properties counts. -/
def Part.Ignores (part : Part) : Node → Prop
  | .element name _ => part ≠ .properties ∧ name ∉ part.sought
  | _ => True

/-- A change of the children of a part that is of no consequence.  A child that is ignored is put
in, two elements of different names that follow each other change places in the project, or a
change of this kind is made inside a child that is a part itself. -/
inductive Change : Part → List Node → List Node → Prop where
  | insert {part : Part} {node : Node} (front back : List Node) (ignored : part.Ignores node) :
      Change part (front ++ back) (front ++ node :: back)
  | swap {first second : String} (front firstInside secondInside back : List Node)
      (apart : first ≠ second) :
      Change .project
        (front ++ .element first firstInside :: .element second secondInside :: back)
        (front ++ .element second secondInside :: .element first firstInside :: back)
  | inside {part inner : Part} {name : String} {before after : List Node}
      (front back : List Node) (isPart : part.blocks.lookup name = some inner)
      (change : Change inner before after) :
      Change part (front ++ .element name before :: back) (front ++ .element name after :: back)

/-- A child of this name is left as it is, or it is a part itself and changed inside. -/
inductive Kept (part : Part) (name : String) : Node → Node → Prop where
  | same (node : Node) : Kept part name node node
  | inside {inner : Part} {before after : List Node}
      (isPart : part.blocks.lookup name = some inner) (change : Change inner before after) :
      Kept part name (.element name before) (.element name after)

section Changes

variable {part inner : Part} {name : String} {before after : List Node}

theorem forall₂_kept (nodes : List Node) : List.Forall₂ (Kept part name) nodes nodes :=
  List.forall₂_same.2 fun node _ => .same node

/-- A change keeps the children for which a part is looked through, in their order. -/
theorem Change.filter (change : Change part before after) (isSought : name ∈ part.sought) :
    List.Forall₂ (Kept part name) (before.filter (Node.isElement name))
      (after.filter (Node.isElement name)) := by
  cases change with
  | @insert _ node front back ignored =>
      have other : ¬Node.isElement name node = true := by
        cases node with
        | element own children =>
            intro same
            exact ignored.2 (beq_iff_eq.1 same ▸ isSought)
        | text content => exact Bool.false_ne_true
        | remark => exact Bool.false_ne_true
      rw [List.filter_append, List.filter_append, List.filter_cons_of_neg other]
      exact forall₂_kept _
  | @swap first second front firstInside secondInside back apart =>
      have swapped : (Node.element first firstInside :: .element second secondInside ::
          back).filter (Node.isElement name) = (Node.element second secondInside ::
            .element first firstInside :: back).filter (Node.isElement name) := by
        by_cases isFirst : first = name
        · have notSecond : second ≠ name := isFirst ▸ apart.symm
          simp [Node.isElement, isFirst, notSecond]
        · simp [List.filter_cons, Node.isElement, isFirst]
      rw [List.filter_append, List.filter_append, swapped]
      exact forall₂_kept _
  | @inside _ inner own inBefore inAfter front back isPart change =>
      rw [List.filter_append, List.filter_append]
      apply List.rel_append (forall₂_kept _)
      by_cases same : own = name
      · subst same
        rw [List.filter_cons_of_pos (by simp [Node.isElement]),
          List.filter_cons_of_pos (by simp [Node.isElement])]
        exact .cons (.inside isPart change) (forall₂_kept _)
      · rw [List.filter_cons_of_neg (by simp [Node.isElement, same]),
          List.filter_cons_of_neg (by simp [Node.isElement, same])]
        exact forall₂_kept _

/-- What is the same for all children that are kept is the same for the part. -/
theorem Change.map_filter {Reading : Type} (change : Change part before after) (name : String)
    (isSought : name ∈ part.sought) (read : Node → Reading)
    (alike : ∀ node other, Kept part name node other → read node = read other) :
    (before.filter (Node.isElement name)).map read =
      (after.filter (Node.isElement name)).map read := by
  rw [← List.forall₂_eq_eq_eq, List.forall₂_map_left_iff, List.forall₂_map_right_iff]
  exact (change.filter isSought).imp alike

/-- The same of the first child of a name. -/
theorem Change.map_child? {Reading : Type} (change : Change part before after) (name : String)
    (isSought : name ∈ part.sought) (read : Node → Reading)
    (alike : ∀ node other, Kept part name node other → read node = read other) (own : String) :
    ((Node.element own before).child? name).map read =
      ((Node.element own after).child? name).map read := by
  have firsts := congrArg List.head? (change.map_filter name isSought read alike)
  rwa [List.head?_map, List.head?_map, List.head?_filter, List.head?_filter] at firsts

/-! ## What is read of a part -/

/-- A child that is no part is kept as it is. -/
theorem Kept.eq_of_leaf {node other : Node} (isLeaf : part.blocks.lookup name = none)
    (kept : Kept part name node other) : node = other := by
  cases kept with
  | same => rfl
  | inside isPart => exact absurd (isLeaf.symm.trans isPart) (Option.some_ne_none _).symm

/-- What is inside a child that is a part is changed as that part. -/
theorem Kept.children {Reading : Type} (inner : Part) {read : Node → Reading} {node other : Node}
    (isPart : part.blocks.lookup name = some inner)
    (alike : ∀ before after, Change inner before after →
      read (.element name before) = read (.element name after))
    (kept : Kept part name node other) : read node = read other := by
  cases kept with
  | same => rfl
  | inside isOther change =>
      cases isPart.symm.trans isOther
      exact alike _ _ change

/-- The text of a child is read alike. -/
theorem Change.childText?_eq (change : Change part before after) (isSought : name ∈ part.sought)
    (isLeaf : part.blocks.lookup name = none) (own : String) :
    childText? (.element own before) name = childText? (.element own after) name := by
  have children := change.map_child? name isSought id (fun _ _ => Kept.eq_of_leaf isLeaf) own
  rw [Option.map_id, id, id] at children
  rw [childText?, children, childText?]

theorem Change.parent_ofNode (change : Change .parent before after) (own : String) :
    Parent.ofNode (.element own before) = Parent.ofNode (.element own after) := by
  simp (disch := decide) only [Parent.ofNode, change.childText?_eq]

theorem Change.declared_ofNode (change : Change .dependency before after) (own : String) :
    Declared.ofNode (.element own before) = Declared.ofNode (.element own after) := by
  simp (disch := decide) only [Declared.ofNode, change.childText?_eq]

/-- The declarations in a list of dependencies. -/
def declarationsOf (list : Node) : List Declared :=
  (list.children.filter (Node.isElement "dependency")).map Declared.ofNode

theorem dependenciesOf_eq (node : Node) :
    dependenciesOf node = ((node.child? "dependencies").map declarationsOf).getD [] := by
  rw [dependenciesOf]
  cases node.child? "dependencies" with
  | none => rfl
  | some list => rfl

theorem Change.declarationsOf_eq (change : Change .dependencies before after) (own : String) :
    declarationsOf (.element own before) = declarationsOf (.element own after) := by
  apply change.map_filter "dependency" (by decide)
  intro node other kept
  exact kept.children .dependency (by decide)
    fun before after change => change.declared_ofNode "dependency"

/-- The dependencies of a part are read alike. -/
theorem Change.dependenciesOf_eq (change : Change part before after)
    (isSought : "dependencies" ∈ part.sought)
    (isPart : part.blocks.lookup "dependencies" = some .dependencies) (own : String) :
    dependenciesOf (.element own before) = dependenciesOf (.element own after) := by
  rw [Descriptor.dependenciesOf_eq, Descriptor.dependenciesOf_eq, change.map_child? _ isSought]
  intro node other kept
  exact kept.children .dependencies isPart
    fun before after change => change.declarationsOf_eq "dependencies"

/-- The names of the modules in a list of them. -/
def moduleNamesOf (list : Node) : List String :=
  (list.children.filter (Node.isElement "module")).filterMap moduleName?

theorem Change.moduleNamesOf_eq (change : Change .modules before after) (own : String) :
    moduleNamesOf (.element own before) = moduleNamesOf (.element own after) := by
  have modules := change.map_filter "module" (by decide) id
    fun _ _ => Kept.eq_of_leaf (by decide)
  rw [List.map_id, List.map_id] at modules
  exact congrArg (List.filterMap moduleName?) modules

/-- The properties in a list of them. -/
def propertiesOf (list : Node) : List (String × String) :=
  list.children.filterMap property?

theorem Change.propertiesOf_eq (change : Change .properties before after) (own : String) :
    propertiesOf (.element own before) = propertiesOf (.element own after) := by
  cases change with
  | @insert _ node front back ignored =>
      have none : property? node = none := by
        cases node with
        | element => exact absurd rfl ignored.1
        | text content => rfl
        | remark => rfl
      simp [propertiesOf, Node.children, none]
  | inside _ _ isPart => exact absurd isPart (by simp [Part.blocks])

end Changes

/-! ## The project -/

section Project

variable {before after : List Node}

/-- The dependency management is read alike. -/
theorem Change.managementOf_eq (change : Change .project before after) (own : String) :
    managementOf (.element own before) = managementOf (.element own after) := by
  rw [managementOf, change.map_child? _ (by decide), managementOf]
  intro node other kept
  exact kept.children .management (by decide)
    fun before after change => change.dependenciesOf_eq (by decide) (by decide) _

theorem ofProject_eq (project : Node) : ofProject project =
    { group := childText? project "groupId"
      artifact := childText? project "artifactId"
      version := childText? project "version"
      packaging := childText? project "packaging"
      parent := (project.child? "parent").map Parent.ofNode
      properties := .ofList (((project.child? "properties").map propertiesOf).getD [])
      dependencies := (dependenciesOf project).map (Declared.manage (managedOf project))
      modules := ((project.child? "modules").map moduleNamesOf).getD [] } := by
  rw [ofProject]
  cases project.child? "properties" with
  | none => cases project.child? "modules" <;> rfl
  | some properties => cases project.child? "modules" <;> rfl

/-- A project is read alike before and after a change of no consequence. -/
theorem Change.ofProject_eq (change : Change .project before after) (own : String) :
    ofProject (.element own before) = ofProject (.element own after) := by
  have parents := change.map_child? "parent" (by decide) Parent.ofNode
    (fun node other kept => kept.children .parent (by decide)
      fun before after change => change.parent_ofNode _) own
  have properties := change.map_child? "properties" (by decide) propertiesOf
    (fun node other kept => kept.children .properties (by decide)
      fun before after change => change.propertiesOf_eq _) own
  have modules := change.map_child? "modules" (by decide) moduleNamesOf
    (fun node other kept => kept.children .modules (by decide)
      fun before after change => change.moduleNamesOf_eq _) own
  have dependencies := change.dependenciesOf_eq (by decide) (by decide) own
  have management := change.managementOf_eq own
  rw [Descriptor.ofProject_eq, Descriptor.ofProject_eq, managedOf_eq, managedOf_eq, parents,
    properties, modules, dependencies, management]
  simp (disch := decide) only [change.childText?_eq]

/-- Trees that differ by any number of changes, made or taken back, are read alike. -/
theorem ofProject_of_alike (alike : Relation.EqvGen (Change .project) before after)
    (own : String) : ofProject (.element own before) = ofProject (.element own after) := by
  induction alike with
  | rel before after change => exact change.ofProject_eq own
  | refl => rfl
  | symm _ _ _ ih => exact ih.symm
  | trans _ _ _ _ _ first second => exact first.trans second

/-! ## Descriptors -/

/-- The descriptor is read as a project with these children. -/
def ReadsAs (text : List Char) (children : List Node) : Prop :=
  Node.ofText? (withoutForeignEntities text) = some (.element "project" children)

/-- A document that is read as it stands is a descriptor with the children of its root, when its
loose ampersands are spared. -/
theorem readsAs_of_wellFormed {text : List Char} {children : List Node}
    (accepted : Node.ofText? text = some (.element "project" children))
    (spared : ∀ after, Node.IsLoose text after → IsSpared after) : ReadsAs text children := by
  rw [ReadsAs, withoutForeignEntities_of_wellFormed accepted spared]
  exact accepted

theorem ReadsAs.parse?_eq {text : List Char} {children : List Node}
    (reads : ReadsAs text children) :
    parse? text = some (ofProject (.element "project" children)) := by
  rw [parse?, reads, Option.bind_some, ofDocument?, Node.find?, if_pos (beq_self_eq_true _)]
  rfl

/-- Two descriptors whose trees differ by changes of no consequence are read, and read alike. -/
theorem parse?_local (left right : List Char) (before after : List Node)
    (readsLeft : ReadsAs left before) (readsRight : ReadsAs right after)
    (alike : Relation.EqvGen (Change .project) before after) :
    ∃ descriptor, parse? left = some descriptor ∧ parse? right = some descriptor := by
  refine ⟨_, readsLeft.parse?_eq, ?_⟩
  rw [readsRight.parse?_eq, ofProject_of_alike alike]

end Project

/-! ### A module between remarks -/

namespace Remarks

/-- A descriptor of one module. -/
def plain : List Char :=
  ("<project><artifactId>a</artifactId><modules><module>m</module></modules></project>").toList

def coordinate : Node := .element "artifactId" [.text "a"]

def child : Node := .element "module" [.text "m"]

/-- What the tree of that text holds. -/
def plainTree : List Node := [coordinate, .element "modules" [child]]

theorem ofText?_plain : Node.ofText? plain = some (.element "project" plainTree) := by
  with_unfolding_all rfl

/-- The same in another order, with a build and a remark. -/
def extended : List Char :=
  ("<project><build><artifactId>b</artifactId></build><modules><!-- R & D --><module>m</module>" ++
    "</modules><artifactId>a</artifactId></project>").toList

def extendedTree : List Node :=
  [.element "build" [.element "artifactId" [.text "b"]], .element "modules" [.remark, child],
    coordinate]

theorem alike_extended : Relation.EqvGen (Change .project) plainTree extendedTree := by
  have remark : Change .modules [child] [.remark, child] := .insert [] [child] trivial
  have inside : Change .project plainTree [coordinate, .element "modules" [.remark, child]] :=
    .inside [coordinate] [] (by decide) remark
  have order : Change .project [coordinate, .element "modules" [.remark, child]]
      [.element "modules" [.remark, child], coordinate] :=
    .swap [] [.text "a"] [.remark, child] [] (by decide)
  have build : Change .project [.element "modules" [.remark, child], coordinate] extendedTree :=
    .insert [] _ ⟨by decide, by decide⟩
  exact .trans _ _ _ (.rel _ _ inside) (.trans _ _ _ (.rel _ _ order) (.rel _ _ build))

/-- The same with a remark before the module and one after it. -/
def enclosed : List Char :=
  ("<project><artifactId>a</artifactId><modules><!-- & --><module>m</module><!-- ; -->" ++
    "</modules></project>").toList

def enclosedTree : List Node := [coordinate, .element "modules" [.remark, child, .remark]]

theorem alike_enclosed : Relation.EqvGen (Change .project) plainTree enclosedTree := by
  have first : Change .modules [child] [.remark, child] := .insert [] [child] trivial
  have second : Change .modules [.remark, child] [.remark, child, .remark] :=
    .insert [.remark, child] [] trivial
  exact .trans _ _ _ (.rel _ _ (.inside [coordinate] [] (by decide) first))
    (.rel _ _ (.inside [coordinate] [] (by decide) second))

end Remarks

open Remarks

set_option maxRecDepth 1024 in
theorem parse?_local_extended :
    ∃ descriptor, parse? plain = some descriptor ∧ parse? extended = some descriptor := by
  have readsPlain : ReadsAs plain plainTree := by
    rw [ReadsAs, withoutForeignEntities_of_not_mem (by decide)]
    exact ofText?_plain
  have accepted : Node.ofText? extended = some (.element "project" extendedTree) := by
    with_unfolding_all rfl
  have readsExtended : ReadsAs extended extendedTree :=
    readsAs_of_wellFormed accepted fun after => isSpared_of_tails (by decide +kernel)
  exact parse?_local plain extended _ _ readsPlain readsExtended alike_extended

/-- A module is lost between an ampersand in a remark before it and a semicolon in one after it,
although the document is well-formed as it stands. -/
theorem not_parse?_local_enclosed :
    ¬∀ (left right : List Char) (before after : List Node),
      Node.ofText? left = some (.element "project" before) →
      Node.ofText? right = some (.element "project" after) →
      Relation.EqvGen (Change .project) before after → parse? left = parse? right := by
  intro always
  have same := always plain enclosed plainTree enclosedTree ofText?_plain
    (by with_unfolding_all rfl) alike_enclosed
  revert same
  decide +kernel

end ClassAtlas.Descriptor
