import ClassAtlas.ClassName
import ClassAtlas.Proofs.Text.Cut
import Mathlib.Data.List.Basic

/-!
# Entries named for classes

The entry of a class is called after its package and its simple name, and it may stand below a
directory where an archive keeps its classes.  Reading the name of the entry gives back the
class (`ofEntry?_entryName`).  The one name that is read otherwise is that of a package whose
first segment is `classes`: at the top of an archive this is taken for a directory of classes.
-/

namespace ClassAtlas.ClassName

/-! ## Names of classes -/

/-- A character that may stand in an identifier: letters, digits, the underscore, the dollar sign
and the control characters that Java ignores there.  Beyond ASCII every character is let through,
so every Java identifier is made of these. -/
def isIdentifierPart (character : Char) : Bool :=
  let code := character.toNat
  Text.isAsciiLetter character || Text.isAsciiDigit character || character == '_' ||
    character == '$' || code ≤ 8 || (14 ≤ code && code ≤ 27) || 127 ≤ code

/-- A name of identifier characters. -/
structure Identifier where
  letters : List Char
  nonempty : letters ≠ []
  isIdentifier : letters.all isIdentifierPart = true

/-- A package that has a name. -/
structure Package where
  first : Identifier
  others : List Identifier

/-- The simple name of a class that has a name of its own. -/
structure SimpleName extends Identifier where
  isNamed : ∀ part ∈ (letters.splitOn '$').drop 1, part ≠ [] ∧ part.all Text.isAsciiDigit = false

def Package.segments (package : Package) : List Identifier :=
  package.first :: package.others

/-- Names with a separator between them. -/
def joined (separator : Char) (segments : List Identifier) : List Char :=
  [separator].intercalate (segments.map (·.letters))

/-- Where the entry of a class stands in an archive. -/
inductive Place where
  | top
  | bootClasses
  | webClasses
  deriving DecidableEq

def Place.directory : Place → List Char
  | top => []
  | bootClasses => "BOOT-INF/classes/".toList
  | webClasses => "WEB-INF/classes/".toList

/-- The name of the entry of a class, with some separators before it. -/
def entryName (separators : Nat) (place : Place) (package : Package) (simple : SimpleName)
    (suffix : List Char) : List Char :=
  List.replicate separators '/' ++ place.directory ++ joined '/' package.segments ++
    '/' :: simple.letters ++ suffix

/-- The segments that are left of a package below the directories of classes. -/
def Place.kept (place : Place) (package : Package) : List Identifier :=
  if place = .top ∧ package.first.letters = "classes".toList then package.others
  else package.segments

/-! ## Identifiers -/

section Identifiers

variable {character : Char}

theorem Identifier.not_mem (identifier : Identifier)
    (foreign : isIdentifierPart character = false) : character ∉ identifier.letters := by
  intro member
  rw [List.all_eq_true.1 identifier.isIdentifier character member] at foreign
  cases foreign

theorem Identifier.slash_not_mem (identifier : Identifier) : '/' ∉ identifier.letters :=
  identifier.not_mem (by decide)

theorem Identifier.hyphen_not_mem (identifier : Identifier) : '-' ∉ identifier.letters :=
  identifier.not_mem (by decide)

theorem SimpleName.isAnonymous_eq_false (simple : SimpleName) :
    isAnonymous simple.letters = false := by
  rw [isAnonymous, List.any_eq_false]
  intro part member
  rw [(simple.isNamed part member).2]
  exact Bool.false_ne_true

theorem SimpleName.not_description (simple : SimpleName) :
    descriptions.contains simple.letters = false := by
  have hyphenated : ∀ name ∈ descriptions, '-' ∈ name := by decide
  rw [Bool.eq_false_iff, Ne, List.contains_iff_mem]
  intro member
  exact simple.hyphen_not_mem (hyphenated _ member)

end Identifiers

/-! ## Paths -/

section Paths

variable {segments : List Identifier}

theorem joined_cons (separator : Char) (first : Identifier) (nonempty : segments ≠ []) :
    joined separator (first :: segments) =
      first.letters ++ separator :: joined separator segments := by
  rw [joined, List.map_cons, List.intercalate_cons_of_ne_nil (by simpa using nonempty)]
  simp [joined]

theorem joined_singleton (separator : Char) (only : Identifier) :
    joined separator [only] = only.letters :=
  List.intercalate_singleton

theorem joined_ne_nil (separator : Char) (nonempty : segments ≠ []) :
    joined separator segments ≠ [] := by
  obtain ⟨first, others, rfl⟩ := List.exists_cons_of_ne_nil nonempty
  cases others with
  | nil => simpa [joined_singleton] using first.nonempty
  | cons second others => simp [joined_cons]

theorem map_joined (segments : List Identifier) :
    ((joined '/' segments).map fun character => if character == '/' then '.' else character) =
      joined '.' segments := by
  have kept (identifier : Identifier) :
      (identifier.letters.map fun character => if character == '/' then '.' else character) =
        identifier.letters := by
    conv_rhs => rw [← List.map_id identifier.letters]
    apply List.map_congr_left
    intro character member
    have other : character ≠ '/' := fun same => identifier.slash_not_mem (same ▸ member)
    simp [other]
  induction segments with
  | nil => rfl
  | cons first others ih =>
      cases others with
      | nil => rw [joined_singleton, joined_singleton, kept]
      | cons second others =>
          rw [joined_cons '/' first (List.cons_ne_nil _ _),
            joined_cons '.' first (List.cons_ne_nil _ _), List.map_append, List.map_cons, ih, kept]
          rfl

/-- A path begins with a directory exactly when that is its first segment. -/
theorem segment_prefix_iff {directory segment : List Char} (whole : '/' ∉ directory)
    (isSegment : '/' ∉ segment) (below rest : List Char) :
    directory ++ '/' :: below <+: segment ++ '/' :: rest ↔
      directory = segment ∧ below <+: rest := by
  constructor
  · rintro ⟨after, shape⟩
    rw [List.append_assoc, List.cons_append] at shape
    have first := congrArg (Text.cut ['/']) shape
    rw [Text.cut_singleton_append whole, Text.cut_singleton_append isSegment] at first
    cases first
    exact ⟨rfl, after, rfl⟩
  · rintro ⟨rfl, after, rfl⟩
    exact ⟨after, by simp⟩

end Paths

/-! ## Reading names back -/

section Reading

variable {place : Place} {package : Package} {simple : SimpleName} {suffix : List Char}

/-- The path of a class below a directory: its packages and its own name. -/
def path (segments : List Identifier) (simple : SimpleName) : List Char :=
  joined '/' (segments ++ [simple.toIdentifier])

theorem path_nil (simple : SimpleName) : path [] simple = simple.letters :=
  joined_singleton '/' simple.toIdentifier

theorem path_cons (first : Identifier) (others : List Identifier) (simple : SimpleName) :
    path (first :: others) simple = first.letters ++ '/' :: path others simple :=
  joined_cons '/' first (List.concat_ne_nil _ _)

theorem path_eq {segments : List Identifier} (nonempty : segments ≠ []) (simple : SimpleName) :
    path segments simple = joined '/' segments ++ '/' :: simple.letters := by
  induction segments with
  | nil => exact absurd rfl nonempty
  | cons first others ih =>
      rw [path_cons]
      cases others with
      | nil => rw [path_nil, joined_singleton]
      | cons second others =>
          rw [ih (List.cons_ne_nil _ _), joined_cons '/' first (List.cons_ne_nil _ _)]
          simp

theorem entryName_eq (separators : Nat) (place : Place) (package : Package) (simple : SimpleName)
    (suffix : List Char) :
    entryName separators place package simple suffix =
      List.replicate separators '/' ++
        (place.directory ++ (path package.segments simple ++ suffix)) := by
  have nonempty : package.segments ≠ [] := List.cons_ne_nil _ _
  simp [entryName, path_eq nonempty]

theorem path_append (package : Package) (simple : SimpleName) (suffix : List Char) :
    path package.segments simple ++ suffix =
      package.first.letters ++ '/' :: (path package.others simple ++ suffix) := by
  rw [Package.segments, path_cons, List.append_assoc, List.cons_append]

/-- The separators at the front are dropped. -/
theorem dropWhile_entryName (separators : Nat) :
    (entryName separators place package simple suffix).dropWhile (· == '/') =
      place.directory ++ (path package.segments simple ++ suffix) := by
  rw [entryName_eq, List.dropWhile_append_of_pos (by simp)]
  cases place with
  | top =>
      obtain ⟨character, letters, whole⟩ := List.exists_cons_of_ne_nil package.first.nonempty
      have other : character ≠ '/' := by
        have absent := package.first.slash_not_mem
        rw [whole, List.mem_cons, not_or] at absent
        exact Ne.symm absent.1
      rw [path_append, whole]
      exact List.dropWhile_cons_of_neg (by simpa using other)
  | bootClasses | webClasses => rfl

/-- No package begins with a directory whose name has a hyphen. -/
theorem not_prefix_of_hyphen (directory : List Char) (whole : '/' ∉ directory)
    (hyphenated : '-' ∈ directory) (below : List Char) :
    ¬directory ++ '/' :: below <+: path package.segments simple ++ suffix := by
  rw [path_append, segment_prefix_iff whole package.first.slash_not_mem]
  rintro ⟨rfl, -⟩
  exact package.first.hyphen_not_mem hyphenated

theorem not_isMetadata :
    ("META-INF/".toList).isPrefixOf (place.directory ++ (path package.segments simple ++ suffix)) =
      false := by
  cases place with
  | top =>
      rw [Bool.eq_false_iff, Ne, List.isPrefixOf_iff_prefix]
      exact not_prefix_of_hyphen "META-INF".toList (by decide) (by decide) []
  | bootClasses | webClasses => rfl

/-- At the top of an archive only a package `classes` is taken for a directory of classes. -/
theorem belowRoot_path :
    belowRoot (path package.segments simple ++ suffix) =
      path (Place.top.kept package) simple ++ suffix := by
  have boot : "BOOT-INF/classes/".toList.isPrefixOf? (path package.segments simple ++ suffix) =
      none :=
    Text.isPrefixOf?_eq_none_iff.2
      (not_prefix_of_hyphen "BOOT-INF".toList (by decide) (by decide) "classes/".toList)
  have web : "WEB-INF/classes/".toList.isPrefixOf? (path package.segments simple ++ suffix) =
      none :=
    Text.isPrefixOf?_eq_none_iff.2
      (not_prefix_of_hyphen "WEB-INF".toList (by decide) (by decide) "classes/".toList)
  by_cases isRoot : package.first.letters = "classes".toList
  · have found : "classes/".toList.isPrefixOf? (path package.segments simple ++ suffix) =
        some (path package.others simple ++ suffix) := by
      rw [Text.isPrefixOf?_eq_some_iff, path_append, isRoot]
      rfl
    simp only [belowRoot, classRoots, List.findSome?_cons, boot, web, found, Option.getD_some]
    rw [Place.kept, if_pos ⟨rfl, isRoot⟩]
  · have missing : "classes/".toList.isPrefixOf? (path package.segments simple ++ suffix) =
        none := by
      rw [Text.isPrefixOf?_eq_none_iff, path_append]
      intro start
      have single : '/' ∉ "classes".toList := by decide
      have same := (segment_prefix_iff single package.first.slash_not_mem [] _).1 start
      exact isRoot same.1.symm
    simp only [belowRoot, classRoots, List.findSome?_cons, List.findSome?_nil, boot, web, missing,
      Option.getD_none]
    rw [Place.kept, if_neg (fun both => isRoot both.2)]

theorem belowRoot_directory :
    belowRoot (place.directory ++ (path package.segments simple ++ suffix)) =
      path (place.kept package) simple ++ suffix := by
  cases place with
  | top => exact belowRoot_path
  | bootClasses | webClasses => rfl

theorem cutLast_path (segments : List Identifier) :
    Text.cutLast '/' (path segments simple) =
      if segments = [] then none else some (joined '/' segments, simple.letters) := by
  have single : '/' ∉ simple.letters := simple.slash_not_mem
  by_cases empty : segments = []
  · rw [if_pos empty, empty, path_nil, Text.cutLast_eq_none single]
  · rw [if_neg empty, path_eq empty, Text.cutLast_append single]

/-- The entry of a class is read as that class, in the package that is left below the directories
of classes.  Nothing is read when no segment is left. -/
theorem ofEntry?_entryName (separators : Nat) (place : Place) (package : Package)
    (simple : SimpleName) (suffix : List Char) :
    ofEntry? suffix (entryName separators place package simple suffix) =
      if place.kept package = [] then none
      else some ⟨String.ofList (joined '.' (place.kept package)),
        String.ofList simple.letters⟩ := by
  have stem : Text.beforeEnd? suffix (path (place.kept package) simple ++ suffix) =
      some (path (place.kept package) simple) :=
    Text.beforeEnd?_eq_some_iff.2 rfl
  rw [ ofEntry?, dropWhile_entryName, not_isMetadata, belowRoot_directory, stem]
  simp only [cutLast_path, Option.bind_eq_bind, Option.bind_some, Bool.false_eq_true, if_false]
  split
  · rfl
  · rename_i kept
    have directory : (joined '/' (place.kept package)).isEmpty = false := by
      simpa using joined_ne_nil '/' kept
    have isNamed : simple.letters.isEmpty = false := by simpa using simple.nonempty
    simp only [Option.bind_some, directory, isNamed, simple.not_description,
      simple.isAnonymous_eq_false, Bool.or_false, Bool.false_eq_true, if_false, map_joined]

end Reading

namespace Sample

/-- `classes.foo` -/
def classesFoo : Package where
  first := ⟨"classes".toList, by decide, by decide⟩
  others := [⟨"foo".toList, by decide, by decide⟩]

def bar : SimpleName where
  letters := "Bar".toList
  nonempty := by decide
  isIdentifier := by decide
  isNamed := by decide

end Sample

/-- At the top of an archive the package `classes.foo` is read as `foo`. -/
theorem not_ofEntry?_entryName :
    ¬∀ separators place package simple,
      ofEntry? ".class".toList (entryName separators place package simple ".class".toList) =
        some ⟨String.ofList (joined '.' package.segments), String.ofList simple.letters⟩ := by
  intro recovered
  have read := recovered 0 .top Sample.classesFoo Sample.bar
  revert read
  decide +kernel

end ClassAtlas.ClassName
