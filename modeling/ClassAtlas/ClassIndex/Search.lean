import ClassAtlas.ClassIndex.Basic
import ClassAtlas.ClassIndex.Pattern

/-!
# Searching a class index

A search compares a pattern with the simple names of an index.  Its kind says what
the pattern means.  The hits come in the order of the index, each with the owner of
its package.
-/

namespace ClassAtlas

/-- What the pattern of a search means. -/
inductive SearchKind where
  | exact
  /-- The name begins with the pattern. -/
  | beginning
  /-- The name ends with the pattern. -/
  | ending
  | containing
  /-- A star stands for any run of characters, a question mark for one. -/
  | wildcard
  deriving DecidableEq, Repr, Inhabited

namespace SearchKind

/-- All kinds, in the order in which they are listed to the user. -/
def all : List SearchKind := [.exact, .beginning, .ending, .containing, .wildcard]

def name : SearchKind → String
  | .exact => "exact"
  | .beginning => "prefix"
  | .ending => "suffix"
  | .containing => "contains"
  | .wildcard => "wildcard"

/-- A word that names no kind of search, as it is left after trimming and lowering. -/
structure Unknown where
  invalid : String
  deriving DecidableEq, Repr

def Unknown.message (unknown : Unknown) : String :=
  "Unknown search type '" ++ unknown.invalid ++ "'. Available: " ++
    ", ".intercalate (all.map name)

/-- Reads the kind of a search; blanks around it and the case of its letters do not
count. -/
def parse (text : String) : Except Unknown SearchKind :=
  let word := Text.lowered (Text.trimmed text)
  match all.find? (·.name == word) with
  | some kind => .ok kind
  | none => .error ⟨word⟩

/-- The piece that a character of a wildcard pattern stands for. -/
def wildcardPiece : Char → Pattern.Piece
  | '*' => .anyRun
  | '?' => .anyOne
  | other => .literal other

/-- The pieces of a pattern. -/
def pieces (kind : SearchKind) (pattern : List Char) : List Pattern.Piece :=
  match kind with
  | .exact => pattern.map .literal
  | .beginning => pattern.map .literal ++ [.anyRun]
  | .ending => .anyRun :: pattern.map .literal
  | .containing => .anyRun :: (pattern.map .literal ++ [.anyRun])
  | .wildcard => pattern.map wildcardPiece

end SearchKind

namespace ClassIndex

structure Hit where
  name : ClassName
  owner : Option String
  deriving DecidableEq, Repr

/-- How many open pieces a pattern may have.  The matcher of a larger one would take up too
much room; this count approximates its size, which depends on more than the open pieces. -/
def openPieceLimit : Nat := 20000

/-- The pattern has too many open pieces to be searched for. -/
def isTooLarge (kind : SearchKind) (pattern : String) : Bool :=
  ((kind.pieces pattern.toList).filter fun piece =>
    piece == .anyOne || piece == .anyRun).length ≥ openPieceLimit

/-- The simple name is one that the pattern matches. -/
def isWanted (kind : SearchKind) (pattern simple : String) : Bool :=
  Pattern.isMatch (kind.pieces pattern.toList) simple.toList

/-- The class with the owner of its package. -/
def hit (index : ClassIndex) (name : ClassName) : Hit :=
  ⟨name, index.ownerOf? name.package⟩

/-- The simple names that a search finds, with their packages. -/
def wanted (index : ClassIndex) (kind : SearchKind) (pattern : String) : List ClassName :=
  (index.packages.toList.filter fun (simple, _) => isWanted kind pattern simple).flatMap
    fun (simple, packages) => packages.toList.map fun package => ⟨package, simple⟩

/-- The first `limit` classes whose simple name matches the pattern; nothing for a
pattern that is too large. -/
def search? (index : ClassIndex) (kind : SearchKind) (pattern : String) (limit : Nat) :
    Option (List Hit) :=
  if isTooLarge kind pattern then none
  else some (((index.wanted kind pattern).take limit).map index.hit)

end ClassIndex
end ClassAtlas
