import ClassAtlas.ClassIndex.Basic
import ClassAtlas.NameResolution.Import

/-!
# Candidates for an ambiguous name

When only the index knows a name, each package that has a class of that name is a
candidate.  Its score tells how likely it is meant: packages of the standard library
are, so are packages called like the role that the class name ends in, and packages
near those that are imported.
-/

namespace ClassAtlas.NameResolution

/-- The packages whose classes come with the language or its extensions. -/
def isStandard (package : String) : Bool :=
  "java.".toList.isPrefixOf package.toList || "javax.".toList.isPrefixOf package.toList

/-- Endings of class names with the package segment where such classes are usually
kept. -/
def roles : List (String × String) :=
  [("Factory", "factory"), ("Service", "service"), ("DAO", "dao"), ("Dao", "dao")]

def lastSegment (package : String) : List Char :=
  ((Text.cutLast '.' package.toList).map Prod.snd).getD package.toList

/-- The class name ends in a role for which the package is named. -/
def hasRole (simple package : String) : Bool :=
  roles.any fun (ending, segment) =>
    ending.toList.isSuffixOf simple.toList && lastSegment package == segment.toList

/-- How many characters of a package an import has to share to be near it. -/
def nearness : Nat := 10

/-- The import begins like the package. -/
def isNear (package statement : String) : Bool :=
  (package.toList.take nearness).isPrefixOf (Import.target statement)

/-- The likelihood of a candidate, in points.  They would go beyond 32 bits only after more
than a billion imports, so that they have no bound here. -/
def score (imports : List String) (simple package : String) : Nat :=
  (if isStandard package then 10 else 0) + (if hasRole simple package then 5 else 0) +
    3 * imports.countP (isNear package)

def bestScore (imports : List String) (simple : String) (candidates : List String) : Nat :=
  (candidates.map (score imports simple)).foldl max 0

/-- The candidates with the highest score, in their order. -/
def best (imports : List String) (simple : String) (candidates : List String) : List String :=
  candidates.filter fun package =>
    score imports simple package == bestScore imports simple candidates

/-- How much trust a guess deserves: half, and a fifth more for each of an import near
the package and a standard package. -/
def confidence (imports : List String) (package : String) : Float :=
  let base : Float := 0.5
  let withImports := if imports.any (isNear package) then base + 0.2 else base
  if isStandard package then withImports + 0.2 else withImports

end ClassAtlas.NameResolution
