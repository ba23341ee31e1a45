import ClassAtlas.Descriptor.Basic
import ClassAtlas.Descriptor.Entities
import ClassAtlas.Markup.Node
import ClassAtlas.Text.Blank
import ClassAtlas.Text.Ascii

/-!
# Reading descriptors as documents

The fields of a well-formed descriptor are taken from the tree of its document.
Only children of the project element count, and of several children with one name
the first.  A dependency without a version takes the one that the dependency
management states for its group and artifact.
-/

namespace ClassAtlas.Descriptor

open Markup (Node)

/-- The text at the start of a child, without blanks at its ends; nothing if it is
blank. -/
def childText? (node : Node) (name : String) : Option String :=
  (((node.child? name).bind Node.leadingText?).map Text.trimmed).filter (!·.isEmpty)

/-- A value that means yes. -/
def isTrue (value : Option String) : Bool :=
  value.any fun value => Text.sameIgnoringCase value "true"

def Declared.ofNode (node : Node) : Declared where
  group := childText? node "groupId"
  artifact := childText? node "artifactId"
  version := childText? node "version"
  scope := childText? node "scope"
  classifier := childText? node "classifier"
  type := childText? node "type"
  systemPath := childText? node "systemPath"
  optional := isTrue (childText? node "optional")

/-- The dependencies that a `dependencies` child declares. -/
def dependenciesOf (node : Node) : List Declared :=
  match node.child? "dependencies" with
  | some list => (list.children.filter (Node.isElement "dependency")).map Declared.ofNode
  | none => []

/-- A version that the dependency management states. -/
structure Managed where
  group : String
  artifact : String
  version : String
  deriving DecidableEq, Repr

/-- The managed version that a declaration in the dependency management states. -/
def Managed.of? (declared : Declared) : Option Managed := do
  some ⟨← declared.group, ← declared.artifact, ← declared.version⟩

/-- The managed versions of a project, the last stated first. -/
def managedOf (project : Node) : List Managed :=
  match project.child? "dependencyManagement" with
  | some management => ((dependenciesOf management).filterMap Managed.of?).reverse
  | none => []

/-- The dependency with the managed version where it has none of its own. -/
def Declared.manage (managed : List Managed) (declared : Declared) : Declared :=
  match declared.version, declared.group, declared.artifact with
  | none, some group, some artifact =>
      { declared with
        version := (managed.find? fun entry =>
          entry.group == group && entry.artifact == artifact).map (·.version) }
  | _, _, _ => declared

/-- The property that a child of `properties` states: an element with text at its
start. -/
def property? : Node → Option (String × String)
  | .element name children =>
      (Node.leadingText? (.element name children)).map fun text => (name, Text.trimmed text)
  | _ => none

def Parent.ofNode (node : Node) : Parent where
  group := childText? node "groupId"
  artifact := childText? node "artifactId"
  version := childText? node "version"

/-- The name of a child module that an element states. -/
def moduleName? (node : Node) : Option String :=
  ((Node.leadingText? node).map Text.trimmed).filter (!·.isEmpty)

def ofProject (project : Node) : Descriptor where
  group := childText? project "groupId"
  artifact := childText? project "artifactId"
  version := childText? project "version"
  packaging := childText? project "packaging"
  parent := (project.child? "parent").map Parent.ofNode
  properties := KeyedTable.ofList
    (((project.child? "properties").map Node.children).getD [] |>.filterMap property?)
  dependencies := (dependenciesOf project).map (Declared.manage (managedOf project))
  modules := ((project.child? "modules").map Node.children).getD []
    |>.filter (Node.isElement "module") |>.filterMap moduleName?

/-- The descriptor of a document's first project element. -/
def ofDocument? (document : Node) : Option Descriptor :=
  (document.find? "project").map ofProject

/-- Reads a well-formed descriptor. -/
def parse? (text : List Char) : Option Descriptor :=
  (Node.ofText? (withoutForeignEntities text)).bind ofDocument?

end ClassAtlas.Descriptor
