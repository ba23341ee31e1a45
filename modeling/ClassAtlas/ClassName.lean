import ClassAtlas.Dependency
import ClassAtlas.Text.WordCharacter

/-!
# Names of classes and archives

The entries of archives and class directories name classes by their path.  Reading
such a name gives the package and the simple name of the class, or nothing for an
entry that is no class of interest.  The name of an archive gives the name of the
dependency that it belongs to.
-/

namespace ClassAtlas

/-- A class by its package and simple name. -/
structure ClassName where
  package : String
  simple : String
  deriving DecidableEq, Repr

namespace ClassName

/-- `package.simple`. -/
def qualified (name : ClassName) : String :=
  name.package ++ "." ++ name.simple

/-- Directories below which an archive may keep its classes. -/
def classRoots : List (List Char) :=
  ["BOOT-INF/classes/".toList, "WEB-INF/classes/".toList, "classes/".toList]

/-- The name below the first class root that it begins with. -/
def belowRoot (name : List Char) : List Char :=
  (classRoots.findSome? fun root => root.isPrefixOf? name).getD name

/-- Simple names that describe a package or module instead of a class. -/
def descriptions : List (List Char) :=
  ["module-info".toList, "package-info".toList]

/-- A simple name with a part after the first that is empty or a number: the class has no
name of its own. -/
def isAnonymous (simple : List Char) : Bool :=
  ((simple.splitOn '$').drop 1).any (·.all Text.isAsciiDigit)

/-- The class that an entry with this suffix holds. -/
def ofEntry? (suffix entry : List Char) : Option ClassName := do
  let name := entry.dropWhile (· == '/')
  if "META-INF/".toList.isPrefixOf name then none
  let stem ← Text.beforeEnd? suffix (belowRoot name)
  let (directory, simple) ← Text.cutLast '/' stem
  if directory.isEmpty || simple.isEmpty || descriptions.contains simple ||
      isAnonymous simple then none
  else
    some ⟨String.ofList (directory.map fun character =>
      if character == '/' then '.' else character), String.ofList simple⟩

end ClassName

namespace ArchiveName

/-- A qualifier of a version: word characters and dots, at least one. -/
def isQualifier (text : List Char) : Bool :=
  !text.isEmpty && text.all fun character =>
    Text.isWordCharacter character || character == '.'

/-- A version: numbers separated by dots, then optionally a hyphen or dot and a
qualifier. -/
def isVersion (text : List Char) : Bool :=
  let digits := text.takeWhile Text.isDigit
  match _rest : text.dropWhile Text.isDigit with
  | [] => !digits.isEmpty
  | '.' :: rest => !digits.isEmpty && (isQualifier rest || isVersion rest)
  | '-' :: rest => !digits.isEmpty && isQualifier rest
  | _ => false
termination_by text.length
decreasing_by
  have shrink : (text.dropWhile Text.isDigit).length ≤ text.length :=
    (List.dropWhile_suffix _).length_le
  rw [_rest, List.length_cons] at shrink
  omega

/-- The part of a name before the last hyphen that a version follows, when that part is
not empty and has no line feed. -/
def beforeVersion? : List Char → Option (List Char)
  | [] => none
  | first :: rest =>
      if first == '\n' then none
      else
        match beforeVersion? rest with
        | some before => some (first :: before)
        | none =>
            match rest with
            | '-' :: version => if isVersion version then some [first] else none
            | _ => none

/-- The name of the dependency to which an archive belongs: its file name without the
extension and without the version at its end. -/
def dependencyName? (path : Path) : Option String :=
  path.stem?.map fun stem =>
    match beforeVersion? stem.toList with
    | some before => String.ofList before
    | none => stem

/-- The path names an archive by its extension. -/
def isArchive (path : Path) : Bool :=
  path.extension?.any fun extension =>
    Text.sameIgnoringCase extension "jar" || Text.sameIgnoringCase extension "zip"

end ArchiveName
end ClassAtlas
