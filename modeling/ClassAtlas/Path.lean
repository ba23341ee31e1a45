import ClassAtlas.Text.Cut

/-!
# Paths

A path keeps its text as it was written.  What it means is its list of components:
repeated and trailing separators do not count, nor does a `.` other than a leading
one, and two paths are the same when their components are.  `join`, `parent`,
`stem` and `extension?` follow the components and keep the spelling of what they
leave in place.
-/

namespace ClassAtlas

/-- A path as it was written. -/
structure Path where
  text : String
  deriving DecidableEq, Repr, Inhabited

namespace Path

/-- A step of a path. -/
inductive Component where
  | root
  | current
  | parent
  | name (text : String)
  deriving DecidableEq, Repr

/-- The text before the body: the root, a leading `.`, or nothing. -/
def lead : List Char → List Char × List Char
  | '/' :: body => (['/'], body)
  | ['.'] => (['.'], [])
  | '.' :: '/' :: body => (['.'], '/' :: body)
  | body => ([], body)

/-- A segment that names nothing. -/
def isIdle (segment : List Char) : Bool :=
  segment.isEmpty || segment == ['.']

/-- The component that a segment of the body stands for. -/
def Component.ofSegment (segment : List Char) : Component :=
  if segment == ['.', '.'] then .parent else .name (String.ofList segment)

def componentsOf (text : List Char) : List Component :=
  let (start, body) := lead text
  let first := match start with
    | ['/'] => [Component.root]
    | ['.'] => [Component.current]
    | _ => []
  first ++ ((body.splitOn '/').filter (!isIdle ·)).map Component.ofSegment

/-- The meaning of a path. -/
def components (path : Path) : List Component :=
  componentsOf path.text.toList

/-- The two paths have the same components. -/
def same (left right : Path) : Bool :=
  left.components == right.components

theorem same_eq_true {left right : Path} :
    left.same right = true ↔ left.components = right.components := by
  simp [same]

/-- Starts at the root. -/
def isAbsolute (path : Path) : Bool :=
  path.text.toList.head? == some '/'

/-- The text of `path` continued by `next`: an absolute continuation takes over,
any other follows after exactly one separator, unless nothing comes before it. -/
def joinText (path next : List Char) : List Char :=
  if next.head? == some '/' then next
  else if path.isEmpty || path.getLast? == some '/' then path ++ next
  else path ++ '/' :: next

/-- The path continued by a relative path, or replaced by an absolute one. -/
def join (path : Path) (next : String) : Path :=
  ⟨String.ofList (joinText path.text.toList next.toList)⟩

/-- The segments without the idle ones at the end. -/
def dropIdle (segments : List (List Char)) : List (List Char) :=
  (segments.reverse.dropWhile isIdle).reverse

/-- The path without its last component, if it has one below the root. -/
def parent? (path : Path) : Option Path :=
  let (start, body) := lead path.text.toList
  match dropIdle (body.splitOn '/') with
  | [] => if start == ['.'] then some ⟨""⟩ else none
  | segments =>
      some ⟨String.ofList (start ++ ['/'].intercalate (dropIdle segments.dropLast))⟩

/-- The name of the last component, when that is a name. -/
def fileName? (path : Path) : Option String :=
  match path.components.getLast? with
  | some (.name text) => some text
  | _ => none

/-- A file name split at its last dot, unless that dot begins the name. -/
def splitName (name : String) : String × Option String :=
  match Text.cutLast '.' name.toList with
  | some (before, after) =>
      if before.isEmpty then (name, none)
      else (String.ofList before, some (String.ofList after))
  | none => (name, none)

/-- The file name without its extension. -/
def stem? (path : Path) : Option String :=
  path.fileName?.map fun name => (splitName name).1

/-- The part of the file name after its last dot. -/
def extension? (path : Path) : Option String :=
  path.fileName?.bind fun name => (splitName name).2

/-- The path itself and the paths above it, nearest first. -/
def ancestors (path : Path) : List Path :=
  climb (path.text.length + 2) path
where
  /-- As many steps as a path of that length can need. -/
  climb : Nat → Path → List Path
    | 0, _ => []
    | steps + 1, path => path :: (path.parent?.map (climb steps)).getD []

/-- The first of each group of equal paths, in order. -/
def distinct (paths : List Path) : List Path :=
  paths.foldl (fun kept path => if kept.any (same path) then kept else kept ++ [path]) []

end Path
end ClassAtlas
