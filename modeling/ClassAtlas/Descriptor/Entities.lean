import ClassAtlas.Text.Cut

/-!
# Entities of descriptors

Descriptors in the wild refer to entities that some outside definition declares.
`withoutForeignEntities` replaces each such reference by a space, so that the XML
reader, which knows no outside definitions, can read the rest.
-/

namespace ClassAtlas.Descriptor

/-- The names of entities that a reader knows, in small letters. -/
def knownEntities : List (List Char) :=
  ["lt".toList, "gt".toList, "amp".toList, "quot".toList, "apos".toList]

/-- The longest reference looked for, in bytes after the ampersand. -/
def longestReference : Nat := 32

/-- The characters after an ampersand up to a semicolon, or until they are longer than
any reference looked for; and the text after them. -/
def takeReference (size : Nat) : List Char → List Char × List Char
  | [] => ([], [])
  | character :: rest =>
      let size := size + character.utf8Size
      if character == ';' || size > longestReference then ([character], rest)
      else
        let (more, after) := takeReference size rest
        (character :: more, after)

theorem length_takeReference (size : Nat) (text : List Char) :
    (takeReference size text).2.length ≤ text.length := by
  induction text generalizing size with
  | nil => simp [takeReference]
  | cons character rest ih =>
      simp only [takeReference]
      split
      · simp
      · exact Nat.le_succ_of_le (ih _)

/-- A name that is kept: known in any case, or the number of a character. -/
def isKeptName (name : List Char) : Bool :=
  knownEntities.contains (name.map Char.toLower) || name.head? == some '#'

/-- What becomes of an ampersand and the characters taken after it. -/
def settleReference (taken : List Char) : List Char :=
  match Text.beforeEnd? [';'] taken with
  | some name => if isKeptName name then '&' :: taken else [' ']
  | none => '&' :: taken

/-- The text with a space for every reference to an entity that is not known. -/
def withoutForeignEntities (text : List Char) : List Char :=
  match text with
  | [] => []
  | '&' :: rest =>
      settleReference (takeReference 0 rest).1 ++
        withoutForeignEntities (takeReference 0 rest).2
  | character :: rest => character :: withoutForeignEntities rest
termination_by text.length
decreasing_by
  · have := length_takeReference 0 rest
    simp only [List.length_cons]
    omega
  · simp

end ClassAtlas.Descriptor
