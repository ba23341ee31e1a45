import ClassAtlas.Descriptor.Structural
import ClassAtlas.Text.WordCharacter

/-!
# Reading descriptors by pattern

A text that is no well-formed document can still hold fields that look like those of
a descriptor.  A block is the text from an opening tag to the next closing tag of
the same name, and a leaf is an opening tag, text and a closing tag right behind
each other.  Comments are removed first; then blocks that hold other things than
what is looked for are removed before looking.
-/

namespace ClassAtlas.Descriptor

open Text (cut)

/-- The opening and closing marks of a block. -/
structure Block where
  opening : List Char
  closing : List Char

namespace Block

/-- The block between the tags of this name. -/
def tagged (name : String) : Block :=
  ⟨("<" ++ name ++ ">").toList, ("</" ++ name ++ ">").toList⟩

def comment : Block := ⟨"<!--".toList, "-->".toList⟩

/-- The text before, inside and after the first block. -/
def find? (block : Block) (text : List Char) :
    Option (List Char × List Char × List Char) :=
  match cut block.opening text with
  | none => none
  | some (before, rest) =>
      (cut block.closing rest).map fun (inside, after) => (before, inside, after)

theorem length_of_find? {block : Block} {text before inside after : List Char}
    (opened : block.opening ≠ []) (found : block.find? text = some (before, inside, after)) :
    after.length < text.length := by
  simp only [find?] at found
  split at found
  · simp at found
  · rename_i start rest isOpened
    simp only [Option.map_eq_some_iff, Prod.mk.injEq] at found
    obtain ⟨⟨inner, outer⟩, isClosed, rfl, rfl, rfl⟩ := found
    have first := Text.length_of_cut isOpened
    have second := Text.length_of_cut isClosed
    have positive := List.length_pos_iff.2 opened
    dsimp only
    omega

/-- What stands inside each block of a text, and the text outside them. -/
def split (block : Block) (text : List Char) : List (List Char) × List Char :=
  if _opened : block.opening = [] then ([], text)
  else
    match _found : block.find? text with
    | none => ([], text)
    | some (before, inside, after) =>
        let (insides, outside) := block.split after
        (inside :: insides, before ++ outside)
termination_by text.length
decreasing_by exact length_of_find? _opened _found

def remove (block : Block) (text : List Char) : List Char :=
  (block.split text).2

/-- What stands inside the blocks. -/
def insides (block : Block) (text : List Char) : List (List Char) :=
  (block.split text).1

/-- What stands inside the first block. -/
def inside? (block : Block) (text : List Char) : Option (List Char) :=
  (block.find? text).map (·.2.1)

end Block

/-- Text between two tags whose names may differ. -/
structure Leaf where
  opened : List Char
  content : List Char
  closed : List Char
  deriving DecidableEq, Repr

namespace Leaf

/-- A character of a tag's name after the first. -/
def isNameRest (character : Char) : Bool :=
  Text.isWordCharacter character || character == '.' || character == '-'

/-- Takes a name and the end of its tag. -/
def scanName (text : List Char) : Option (List Char × List Char) :=
  match text with
  | [] => none
  | first :: rest =>
      if Text.isAsciiLetter first || first == '_' then
        match rest.dropWhile isNameRest with
        | '>' :: after => some (first :: rest.takeWhile isNameRest, after)
        | _ => none
      else none

/-- Takes a leaf after the mark that opens it. -/
def scan (text : List Char) : Option (Leaf × List Char) :=
  match scanName text with
  | none => none
  | some (opened, rest) =>
      match rest.dropWhile (· != '<') with
      | '<' :: '/' :: after =>
          (scanName after).map fun (closed, after) =>
            (⟨opened, rest.takeWhile (· != '<'), closed⟩, after)
      | _ => none

theorem length_of_scanName {text name rest : List Char}
    (scanned : scanName text = some (name, rest)) : rest.length < text.length := by
  simp only [scanName] at scanned
  split at scanned
  · simp at scanned
  · rename_i first after
    split at scanned
    · split at scanned
      · rename_i final found
        have shrink := Markup.length_dropWhile_le isNameRest after
        simp only [Option.some.injEq, Prod.mk.injEq] at scanned
        obtain ⟨_, rfl⟩ := scanned
        rw [found, List.length_cons] at shrink
        simp only [List.length_cons]
        omega
      · simp at scanned
    · simp at scanned

theorem length_of_scan {text rest : List Char} {leaf : Leaf}
    (scanned : scan text = some (leaf, rest)) : rest.length < text.length := by
  simp only [scan] at scanned
  split at scanned
  · simp at scanned
  · rename_i opened afterName named
    have first := length_of_scanName named
    split at scanned
    · rename_i after found
      simp only [Option.map_eq_some_iff, Prod.mk.injEq] at scanned
      obtain ⟨⟨closed, final⟩, second, _, rfl⟩ := scanned
      have second := length_of_scanName second
      have shrink := Markup.length_dropWhile_le (· != '<') afterName
      rw [found] at shrink
      simp only [List.length_cons] at shrink
      dsimp only
      omega
    · simp at scanned

/-- The leaves of a text from left to right, none inside another. -/
def all (text : List Char) : List Leaf :=
  match text with
  | [] => []
  | '<' :: rest =>
      match _scanned : scan rest with
      | some (leaf, after) => leaf :: all after
      | none => all rest
  | _ :: rest => all rest
termination_by text.length
decreasing_by
  · have := length_of_scan _scanned
    simp only [List.length_cons]
    omega
  · simp
  · simp

/-- The name and trimmed value of a leaf whose two names agree. -/
def pair? (leaf : Leaf) : Option (String × String) :=
  if leaf.opened == leaf.closed then
    some (String.ofList leaf.opened, String.ofList (Text.trim leaf.content))
  else none

end Leaf

/-- The names and values of the leaves of a text. -/
def pairs (text : List Char) : List (String × String) :=
  (Leaf.all text).filterMap Leaf.pair?

/-- The names and values of the leaves of a text that are not blank. -/
def fields (text : List Char) : List (String × String) :=
  (pairs text).filter fun (_, value) => !value.isEmpty

/-- Takes the name of a module and the closing tag from the text after the opening
one. -/
def scanModule (text : List Char) : Option (List Char × List Char) :=
  let name := text.takeWhile (· != '<')
  if name.isEmpty then none
  else ("</module>".toList.isPrefixOf? (text.dropWhile (· != '<'))).map (name, ·)

theorem length_of_scanModule {text name rest : List Char}
    (scanned : scanModule text = some (name, rest)) : rest.length < text.length := by
  simp only [scanModule] at scanned
  split at scanned
  · simp at scanned
  · simp only [Option.map_eq_some_iff, Prod.mk.injEq] at scanned
    obtain ⟨after, closed, _, rfl⟩ := scanned
    have shrink := Markup.length_dropWhile_le (· != '<') text
    rw [Text.isPrefixOf?_eq_some closed, List.length_append] at shrink
    have : 0 < "</module>".toList.length := by decide
    omega

/-- The names in the module tags of a text. -/
def moduleNames (text : List Char) : List String :=
  match _opened : cut "<module>".toList text with
  | none => []
  | some (_, rest) =>
      match _scanned : scanModule rest with
      | some (name, after) => String.ofList (Text.trim name) :: moduleNames after
      | none => moduleNames rest
termination_by text.length
decreasing_by
  · have first := Text.length_of_cut _opened
    have second := length_of_scanModule _scanned
    omega
  · have first := Text.length_of_cut _opened
    have : 0 < "<module>".toList.length := by decide
    omega

def Declared.ofFields (fields : List (String × String)) : Declared where
  group := fields.lookup "groupId"
  artifact := fields.lookup "artifactId"
  version := fields.lookup "version"
  scope := fields.lookup "scope"
  classifier := fields.lookup "classifier"
  type := fields.lookup "type"
  systemPath := fields.lookup "systemPath"
  optional := isTrue (fields.lookup "optional")

def Parent.ofFields (fields : List (String × String)) : Parent where
  group := fields.lookup "groupId"
  artifact := fields.lookup "artifactId"
  version := fields.lookup "version"

/-- The dependency that a block declares; what it excludes does not count. -/
def declaredIn (block : List Char) : Declared :=
  .ofFields (fields ((Block.tagged "exclusions").remove block))

/-- The blocks whose fields are not those of the project itself. -/
def innerBlocks : List Block :=
  ["parent", "properties", "dependencies", "build", "profiles"].map Block.tagged

/-- Reads a descriptor by pattern. -/
def scrape (text : List Char) : Descriptor :=
  let text := Block.comment.remove text
  let unmanaged := (Block.tagged "dependencyManagement").remove text
  let identityText := innerBlocks.foldl (fun text block => block.remove text) unmanaged
  let identity := fields identityText
  { group := identity.lookup "groupId"
    artifact := identity.lookup "artifactId"
    version := identity.lookup "version"
    packaging := identity.lookup "packaging"
    parent := ((Block.tagged "parent").inside? text).map fun inside =>
      .ofFields (fields inside)
    properties := KeyedTable.ofList
      (((Block.tagged "properties").inside? text).map pairs |>.getD [])
    dependencies := (((Block.tagged "dependency").insides unmanaged).map declaredIn).filter
      fun declared => declared.group.isSome || declared.artifact.isSome
    modules := moduleNames identityText }

/-- How a descriptor was read. -/
inductive Reading where
  | structural
  | scraped
  deriving DecidableEq, Repr

/-- Reads a descriptor as a document, or by pattern when it is none. -/
def read (text : List Char) : Descriptor × Reading :=
  match parse? text with
  | some descriptor => (descriptor, .structural)
  | none => (scrape text, .scraped)

end ClassAtlas.Descriptor
