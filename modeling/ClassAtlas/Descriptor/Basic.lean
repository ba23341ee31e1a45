import ClassAtlas.KeyedTable

/-!
# Descriptors as written

The fields of a build descriptor before its property references are expanded.  A
field that a descriptor leaves out may be inherited from the parent it names.
-/

namespace ClassAtlas

/-- The parent that a descriptor names. -/
structure Descriptor.Parent where
  group : Option String := none
  artifact : Option String := none
  version : Option String := none
  deriving DecidableEq, Repr

/-- A dependency as a descriptor declares it. -/
structure Descriptor.Declared where
  group : Option String := none
  artifact : Option String := none
  version : Option String := none
  scope : Option String := none
  classifier : Option String := none
  type : Option String := none
  systemPath : Option String := none
  optional : Bool := false
  deriving DecidableEq, Repr

/-- A descriptor as it is written. -/
structure Descriptor where
  group : Option String := none
  artifact : Option String := none
  version : Option String := none
  packaging : Option String := none
  parent : Option Descriptor.Parent := none
  properties : PropertyTable := KeyedTable.empty
  dependencies : List Descriptor.Declared := []
  modules : List String := []
  deriving DecidableEq

namespace Descriptor

/-- The own group, else that of the parent. -/
def effectiveGroup (descriptor : Descriptor) : Option String :=
  descriptor.group.orElse fun _ => descriptor.parent.bind (·.group)

/-- The own version, else that of the parent. -/
def effectiveVersion (descriptor : Descriptor) : Option String :=
  descriptor.version.orElse fun _ => descriptor.parent.bind (·.version)

end Descriptor
end ClassAtlas
