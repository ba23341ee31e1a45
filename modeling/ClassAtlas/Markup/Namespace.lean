import ClassAtlas.Markup.Reference

/-!
# Namespaces

The attributes of a start tag may bind namespace prefixes; the names of the element
and of its other attributes may use the prefixes that are bound there or further
out.  `Bindings.enter` gives the bindings inside an element, or nothing when its tag
misuses a prefix or repeats an attribute.
-/

namespace ClassAtlas.Markup

/-- The namespace of the prefix `xml`, which attributes may use without a binding. -/
def xmlNamespace : String := "http://www.w3.org/XML/1998/namespace"

/-- The namespace of binding attributes, to which nothing can be bound. -/
def bindingNamespace : String := "http://www.w3.org/2000/xmlns/"

/-- The namespaces of prefixes, innermost first. -/
abbrev Bindings := List (String × String)

namespace Bindings

def namespaceOf? (bindings : Bindings) (space : String) : Option String :=
  (bindings.find? (·.1 == space)).map (·.2)

/-- An attribute that binds a prefix or the default namespace. -/
def isBinding (name : QualifiedName) : Bool :=
  name.space == "xmlns" || name.base == "xmlns"

/-- Adds the binding that an attribute makes to those of its tag.  The prefix `xml` and
its namespace belong together, and stating so binds nothing; nothing is bound to the
namespace of bindings, and a prefix is bound at most once.  The default namespace is of
no consequence. -/
def declare (own : Bindings) (name : QualifiedName) (value : String) : Option Bindings :=
  if name.space == "xmlns" then
    if value == bindingNamespace || (name.base == "xml") != (value == xmlNamespace) ||
        own.any (·.1 == name.base) then none
    else if value == xmlNamespace then some own
    else some ((name.base, value) :: own)
  else if name.base == "xmlns" then
    if value == bindingNamespace || value == xmlNamespace then none else some own
  else some own

/-- The namespace and local name of an attribute; without a prefix it has no namespace. -/
def expand? (bindings : Bindings) (name : QualifiedName) : Option (Option String × String) :=
  if name.space.isEmpty then some (none, name.base)
  else if name.space == "xml" then some (some xmlNamespace, name.base)
  else (bindings.namespaceOf? name.space).map fun namespaceName => (some namespaceName, name.base)

/-- The prefix of an element is bound, or there is none.  The prefix `xml` is for
attributes alone: it is never bound, so no element has it. -/
def isBound (bindings : Bindings) (space : String) : Bool :=
  space.isEmpty || (bindings.namespaceOf? space).isSome

/-- The bindings inside an element with this start tag. -/
def enter (outer : Bindings) (name : QualifiedName) (attributes : List Attribute) :
    Option Bindings := do
  let named ← attributes.mapM fun written =>
    (valueOf written.value).map fun value => (written.name, String.ofList value)
  let own ← named.foldlM (fun own (name, value) => declare own name value) []
  let bindings := own ++ outer
  if name.space == "xmlns" || !isBound bindings name.space then none
  else
    let plain := named.filter fun (name, _) => !isBinding name
    let expanded ← plain.mapM fun (name, _) => expand? bindings name
    if expanded.eraseDups.length == expanded.length then some bindings else none

end Bindings
end ClassAtlas.Markup
