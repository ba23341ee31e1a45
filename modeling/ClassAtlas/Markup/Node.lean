import ClassAtlas.Markup.Namespace

/-!
# Document trees

A document is a tree of elements.  Of an element the local name and the children are
kept; text and character references that follow each other form one piece of text,
and a remark keeps such pieces apart.  `Node.ofText?` reads a document, and gives
nothing for a text that is not well-formed.
-/

namespace ClassAtlas.Markup

/-- A node of a document. -/
inductive Node where
  | element (name : String) (children : List Node)
  | text (content : String)
  | remark
  deriving Repr, Inhabited

namespace Node

def children : Node → List Node
  | .element _ children => children
  | _ => []

/-- An element of this local name. -/
def isElement (name : String) : Node → Bool
  | .element own _ => own == name
  | _ => false

/-- The first child that is an element of this local name. -/
def child? (node : Node) (name : String) : Option Node :=
  node.children.find? (isElement name)

/-- The text with which the content of an element begins. -/
def leadingText? (node : Node) : Option String :=
  match node.children with
  | .text content :: _ => some content
  | _ => none

mutual

/-- The first element of this name in document order, the node itself included. -/
def find? (name : String) : Node → Option Node
  | .element own children =>
      if own == name then some (.element own children) else findIn? name children
  | _ => none

/-- The first element of this name in a list of nodes. -/
def findIn? (name : String) : List Node → Option Node
  | [] => none
  | node :: rest => (find? name node).orElse fun _ => findIn? name rest

end

/-- An element whose end has not been read. -/
structure Open where
  name : QualifiedName
  bindings : Bindings
  /-- The children so far, the latest first. -/
  latest : List Node

namespace Open

def add (parent : Open) (node : Node) : Open :=
  { parent with latest := node :: parent.latest }

/-- The open element with more text, which continues a text just before it. -/
def addText (parent : Open) (content : List Char) : Open :=
  match parent.latest with
  | .text before :: earlier =>
      { parent with latest := .text (before ++ String.ofList content) :: earlier }
  | _ => parent.add (.text (String.ofList content))

def close (element : Open) : Node :=
  .element element.name.base element.latest.reverse

end Open

/-- Reads the content of the innermost of the open elements, and of those around it,
to the end of the outermost.  Gives that element and the tokens after it. -/
def content? (inner : Open) (outer : List Open) : List Token → Option (Node × List Token)
  | [] => none
  | .text written :: rest =>
      match contentOf written with
      | some content => content? (inner.addText content) outer rest
      | none => none
  | .verbatim written :: rest => content? (inner.addText (verbatimOf written)) outer rest
  | .remark :: rest => content? (inner.add .remark) outer rest
  | .opening name attributes closed :: rest =>
      match inner.bindings.enter name attributes with
      | none => none
      | some bindings =>
          if closed then content? (inner.add (.element name.base [])) outer rest
          else content? ⟨name, bindings, []⟩ (inner :: outer) rest
  | .closing name :: rest =>
      if name == inner.name then
        match outer with
        | [] => some (inner.close, rest)
        | parent :: outer => content? (parent.add inner.close) outer rest
      else none

/-- What may stand around the root element: remarks and spaces. -/
def isAround : Token → Bool
  | .remark => true
  | .text content => isSpaces content
  | _ => false

/-- The root element of a document with these tokens. -/
def ofTokens? (tokens : List Token) : Option Node :=
  match tokens.dropWhile isAround with
  | .opening name attributes closed :: rest =>
      match Bindings.enter [] name attributes with
      | none => none
      | some bindings =>
          let root := if closed then some (.element name.base [], rest)
            else content? ⟨name, bindings, []⟩ [] rest
          root.bind fun (node, after) => if after.all isAround then some node else none
  | _ => none

/-- The root element of a document: an optional byte order mark, an optional
declaration, and the tokens of one element with remarks and spaces around it. -/
def ofText? (text : List Char) : Option Node := do
  if !text.all isAllowed then none
  let text := Text.withoutStart ['\uFEFF'] text
  let body ← if declarationMark.isPrefixOf text then skipDeclaration text else some text
  ofTokens? (← Token.scanAll body)

end Node
end ClassAtlas.Markup
