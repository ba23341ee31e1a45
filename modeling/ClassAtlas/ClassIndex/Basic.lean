import ClassAtlas.ClassName
import Std.Data.TreeMap.Basic
import Std.Data.TreeSet.Basic

/-!
# Class indexes

A class index knows for each simple name the packages that have a class of that
name, and for each package the dependency that it belongs to.  When several
dependencies claim a package, the one with the smallest name has it, so the order of
claims is of no consequence.
-/

namespace ClassAtlas

/-- Packages by simple name, and owners by package. -/
structure ClassIndex where
  packages : Std.TreeMap String (Std.TreeSet String) := {}
  owners : Std.TreeMap String String := {}

namespace ClassIndex

/-- The packages that have a class of this name, in increasing order. -/
def packagesOf (index : ClassIndex) (simple : String) : List String :=
  ((index.packages[simple]?).map Std.TreeSet.toList).getD []

def contains (index : ClassIndex) (name : ClassName) : Bool :=
  (index.packages[name.simple]?).any (·.contains name.package)

/-- The index with one more class. -/
def insert (index : ClassIndex) (name : ClassName) : ClassIndex :=
  { index with
    packages := index.packages.insert name.simple
      (((index.packages[name.simple]?).getD {}).insert name.package) }

/-- The dependency to which a package belongs. -/
def ownerOf? (index : ClassIndex) (package : String) : Option String :=
  index.owners[package]?

def smaller (left right : String) : String :=
  if right < left then right else left

/-- The index with a claim that a package belongs to a dependency. -/
def claim (index : ClassIndex) (package owner : String) : ClassIndex :=
  { index with
    owners := index.owners.insert package
      (((index.owners[package]?).map (smaller · owner)).getD owner) }

def simpleNameCount (index : ClassIndex) : Nat :=
  index.packages.size

/-- All classes, by simple name and then by package. -/
def classes (index : ClassIndex) : List ClassName :=
  index.packages.toList.flatMap fun (simple, packages) =>
    packages.toList.map fun package => ⟨package, simple⟩

def classCount (index : ClassIndex) : Nat :=
  index.classes.length

def ownedPackageCount (index : ClassIndex) : Nat :=
  index.owners.size

def isEmpty (index : ClassIndex) : Bool :=
  index.packages.isEmpty

end ClassIndex
end ClassAtlas
