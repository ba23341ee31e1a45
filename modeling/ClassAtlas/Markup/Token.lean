import ClassAtlas.Markup.Character
import ClassAtlas.Text.Cut

/-!
# Tokens of XML

A document is a sequence of tags, remarks and pieces of text.  `Token.scan` takes
the first of them from a text, and `Token.scanAll` all of them; a text that cannot
be taken apart this way has no tokens.  References inside text and attribute values
are left as they are written.
-/

namespace ClassAtlas.Markup

open Text (cut)

/-- A name with its namespace prefix, which is empty when there is none. -/
structure QualifiedName where
  space : String
  base : String
  deriving DecidableEq, Repr

namespace QualifiedName

def startsName : List Char → Bool
  | [] => false
  | character :: _ => isNameStart character

/-- A name of the two parts; the prefix may be empty, the local part may not. -/
def of? (space base : List Char) : Option QualifiedName :=
  if startsName base && (space.isEmpty || startsName space) then
    some ⟨String.ofList space, String.ofList base⟩
  else none

/-- Takes a name from the start of a text. -/
def scan (text : List Char) : Option (QualifiedName × List Char) :=
  let first := text.takeWhile isNamePart
  match text.dropWhile isNamePart with
  | ':' :: rest =>
      (of? first (rest.takeWhile isNamePart)).map (·, rest.dropWhile isNamePart)
  | rest => (of? [] first).map (·, rest)

end QualifiedName

/-- An attribute as it is written. -/
structure Attribute where
  name : QualifiedName
  value : List Char
  deriving DecidableEq, Repr

/-- Takes a name, an equals sign and a quoted value from the start of a text. -/
def Attribute.scan (text : List Char) : Option (Attribute × List Char) :=
  match QualifiedName.scan text with
  | none => none
  | some (name, rest) =>
    match skipSpaces rest with
    | '=' :: rest =>
      match skipSpaces rest with
      | quote :: rest =>
        if quote == '"' || quote == '\'' then
          let inside := fun character => character != quote && character != '<'
          match rest.dropWhile inside with
          | closing :: after =>
              if closing == quote then some (⟨name, rest.takeWhile inside⟩, after) else none
          | [] => none
        else none
      | [] => none
    | _ => none

/-- A piece of a document. -/
inductive Token where
  /-- The start of an element, which an empty-element tag also ends. -/
  | opening (name : QualifiedName) (attributes : List Attribute) (closed : Bool)
  | closing (name : QualifiedName)
  | text (content : List Char)
  /-- A section of text without references. -/
  | verbatim (content : List Char)
  /-- A comment or a processing instruction. -/
  | remark
  deriving Repr

section Lengths

theorem length_dropWhile_le {α : Type} (test : α → Bool) (items : List α) :
    (items.dropWhile test).length ≤ items.length := by
  induction items with
  | nil => simp
  | cons head tail ih =>
      rw [List.dropWhile_cons]
      split
      · exact Nat.le_succ_of_le ih
      · exact Nat.le_refl _

theorem length_skipSpaces_le (text : List Char) :
    (skipSpaces text).length ≤ text.length :=
  length_dropWhile_le _ _

theorem length_of_nameScan {text rest : List Char} {name : QualifiedName}
    (scanned : QualifiedName.scan text = some (name, rest)) :
    rest.length < text.length := by
  have shrink := length_dropWhile_le isNamePart text
  simp only [QualifiedName.scan] at scanned
  split at scanned
  · rename_i after found
    simp only [Option.map_eq_some_iff, Prod.mk.injEq] at scanned
    obtain ⟨_, _, rfl, rfl⟩ := scanned
    have inner := length_dropWhile_le isNamePart after
    rw [found] at shrink
    simp only [List.length_cons] at shrink
    omega
  · simp only [Option.map_eq_some_iff, Prod.mk.injEq] at scanned
    obtain ⟨_, made, rfl, rfl⟩ := scanned
    have nonempty : QualifiedName.startsName (text.takeWhile isNamePart) = true := by
      simp only [QualifiedName.of?] at made
      split at made
      · rename_i both
        simp only [Bool.and_eq_true] at both
        exact both.1
      · simp at made
    have parts := congrArg List.length (List.takeWhile_append_dropWhile (p := isNamePart) (l := text))
    rw [List.length_append] at parts
    have positive : 0 < (text.takeWhile isNamePart).length := by
      cases equal : text.takeWhile isNamePart with
      | nil => simp [equal, QualifiedName.startsName] at nonempty
      | cons => simp
    omega

theorem length_of_attributeScan {text rest : List Char} {first : Attribute}
    (scanned : Attribute.scan text = some (first, rest)) :
    rest.length < text.length := by
  simp only [Attribute.scan] at scanned
  split at scanned
  · simp at scanned
  · rename_i afterName name
    have named := length_of_nameScan name
    split at scanned
    · rename_i afterEquals equals
      have first := length_skipSpaces_le afterName
      rw [equals, List.length_cons] at first
      split at scanned
      · rename_i quote afterQuote quoted
        have second := length_skipSpaces_le afterEquals
        rw [quoted, List.length_cons] at second
        split at scanned
        · split at scanned
          · rename_i closing after found
            have third := length_dropWhile_le
              (fun character => character != quote && character != '<') afterQuote
            rw [found, List.length_cons] at third
            split at scanned
            · simp only [Option.some.injEq, Prod.mk.injEq] at scanned
              obtain ⟨_, rfl⟩ := scanned
              omega
            · simp at scanned
          · simp at scanned
        · simp at scanned
      · simp at scanned
    · simp at scanned

end Lengths

/-- Takes the attributes and the end of a start tag; each attribute follows a space.
The answer says whether the tag closes its element. -/
def scanAttributes (text : List Char) : Option (List Attribute × Bool × List Char) :=
  match _shape : skipSpaces text with
  | '/' :: '>' :: rest => some ([], true, rest)
  | '>' :: rest => some ([], false, rest)
  | tight =>
    if text.head?.any isSpace then
      match _scanned : Attribute.scan tight with
      | some (first, rest) =>
          (scanAttributes rest).map fun (others, closed, rest) =>
            (first :: others, closed, rest)
      | none => none
    else none
termination_by text.length
decreasing_by
  have shorter := length_of_attributeScan _scanned
  have spaces := length_skipSpaces_le text
  rw [_shape] at spaces
  omega

/-- The end of a declaration's attribute: spaces, or the end of the declaration. -/
def afterDeclared (text : List Char) : Option (List Char) :=
  if text.head?.any isSpace then some (skipSpaces text)
  else if text.isEmpty || ['?', '>'].isPrefixOf text then some text
  else none

/-- Takes an attribute whose name begins with `word`, if one stands there. -/
def scanDeclared (word text : List Char) : Option (Option (List Char)) :=
  if word.isPrefixOf text then some ((Attribute.scan text).map (·.2)) else none

/-- The text after the XML declaration with which it begins: a version, then
optionally an encoding and whether it stands alone. -/
def skipDeclaration (text : List Char) : Option (List Char) := do
  let start := skipSpaces (text.drop "<?xml".length)
  let afterVersion ← (← scanDeclared "version".toList start)
  let rest ← afterDeclared afterVersion
  let rest ← match scanDeclared "encoding".toList rest with
    | some afterEncoding => afterEncoding.bind afterDeclared
    | none => some rest
  let rest ← (scanDeclared "standalone".toList rest).getD (some rest)
  ['?', '>'].isPrefixOf? (skipSpaces rest)

/-- The mark with which a declaration begins. -/
def declarationMark : List Char := "<?xml ".toList

namespace Token

/-- The name with which a processing instruction begins, colons included. -/
def startsInstruction : List Char → Bool
  | [] => false
  | character :: _ => isNameStart character || character == ':'

/-- Takes a comment after its opening mark.  It holds no `--` and does not end in a
hyphen. -/
def scanComment (text : List Char) : Option (Token × List Char) :=
  match cut "-->".toList text with
  | some (content, rest) =>
      if Text.contains ['-', '-'] content || content.getLast? == some '-' then none
      else some (.remark, rest)
  | none => none

/-- Takes the first token of a text that is not empty. -/
def scan (text : List Char) : Option (Token × List Char) :=
  match text with
  | [] => none
  | '<' :: '!' :: '-' :: '-' :: rest => scanComment rest
  | '<' :: '!' :: rest =>
      (("[CDATA[".toList.isPrefixOf? rest).bind (cut "]]>".toList)).map
        fun (content, rest) => (.verbatim content, rest)
  | '<' :: '?' :: rest =>
      if declarationMark.isPrefixOf text || !startsInstruction rest then none
      else (cut ['?', '>'] rest).map fun (_, rest) => (.remark, rest)
  | '<' :: '/' :: rest =>
      match QualifiedName.scan rest with
      | some (name, rest) =>
          match skipSpaces rest with
          | '>' :: rest => some (.closing name, rest)
          | _ => none
      | none => none
  | '<' :: rest =>
      match QualifiedName.scan rest with
      | some (name, rest) =>
          (scanAttributes rest).map fun (attributes, closed, rest) =>
            (.opening name attributes closed, rest)
      | none => none
  | character :: rest =>
      let content := character :: rest.takeWhile (· != '<')
      if Text.contains "]]>".toList content then none
      else some (.text content, rest.dropWhile (· != '<'))

end Token

theorem length_of_scanAttributes {text rest : List Char} {attributes : List Attribute}
    {closed : Bool} (scanned : scanAttributes text = some (attributes, closed, rest)) :
    rest.length < text.length := by
  fun_induction scanAttributes text generalizing attributes closed rest with
  | case1 text after found =>
      have spaces := length_skipSpaces_le text
      simp only [Option.some.injEq, Prod.mk.injEq] at scanned
      obtain ⟨_, _, rfl⟩ := scanned
      rw [found] at spaces
      simp only [List.length_cons] at spaces
      omega
  | case2 text after found =>
      have spaces := length_skipSpaces_le text
      simp only [Option.some.injEq, Prod.mk.injEq] at scanned
      obtain ⟨_, _, rfl⟩ := scanned
      rw [found] at spaces
      simp only [List.length_cons] at spaces
      omega
  | case3 text _ _ _ first after found ih =>
      have spaces := length_skipSpaces_le text
      have shorter := length_of_attributeScan found
      simp only [Option.map_eq_some_iff, Prod.mk.injEq] at scanned
      obtain ⟨⟨others, last, final⟩, inner, _, _, rfl⟩ := scanned
      have := ih inner
      dsimp only
      omega
  | case4 => simp at scanned
  | case5 => simp at scanned

namespace Token

theorem length_of_scan {text rest : List Char} {token : Token}
    (scanned : scan text = some (token, rest)) : rest.length < text.length := by
  simp only [scan] at scanned
  split at scanned
  · simp at scanned
  · rename_i comment
    simp only [scanComment] at scanned
    split at scanned
    · rename_i content after found
      have size := Text.length_of_cut found
      split at scanned
      · simp at scanned
      · simp only [Option.some.injEq, Prod.mk.injEq] at scanned
        obtain ⟨_, rfl⟩ := scanned
        simp only [List.length_cons]
        omega
    · simp at scanned
  · rename_i opened _
    simp only [Option.map_eq_some_iff, Option.bind_eq_some_iff, Prod.mk.injEq] at scanned
    obtain ⟨⟨content, after⟩, ⟨inner, isOpened, found⟩, _, rfl⟩ := scanned
    have size := Text.length_of_cut found
    have whole := congrArg List.length (Text.isPrefixOf?_eq_some isOpened)
    rw [List.length_append] at whole
    simp only [List.length_cons]
    omega
  · rename_i instruction
    split at scanned
    · simp at scanned
    · simp only [Option.map_eq_some_iff, Prod.mk.injEq] at scanned
      obtain ⟨⟨content, after⟩, found, _, rfl⟩ := scanned
      have size := Text.length_of_cut found
      simp only [List.length_cons]
      omega
  · rename_i closing
    split at scanned
    · rename_i name after named
      have shorter := length_of_nameScan named
      split at scanned
      · rename_i final found
        have spaces := length_skipSpaces_le after
        simp only [Option.some.injEq, Prod.mk.injEq] at scanned
        obtain ⟨_, rfl⟩ := scanned
        rw [found] at spaces
        simp only [List.length_cons] at spaces ⊢
        omega
      · simp at scanned
    · simp at scanned
  · rename_i opening _ _ _ _
    split at scanned
    · rename_i name after named
      have shorter := length_of_nameScan named
      simp only [Option.map_eq_some_iff, Prod.mk.injEq] at scanned
      obtain ⟨⟨attributes, closed, final⟩, found, _, rfl⟩ := scanned
      have := length_of_scanAttributes found
      simp only [List.length_cons]
      omega
    · simp at scanned
  · rename_i character after _ _ _ _ _
    split at scanned
    · simp at scanned
    · simp only [Option.some.injEq, Prod.mk.injEq] at scanned
      obtain ⟨_, rfl⟩ := scanned
      have := length_dropWhile_le (· != '<') after
      simp only [List.length_cons]
      omega

def scanAll (text : List Char) : Option (List Token) :=
  if text.isEmpty then some []
  else
    match _scanned : scan text with
    | some (token, rest) => (scanAll rest).map (token :: ·)
    | none => none
termination_by text.length
decreasing_by exact length_of_scan _scanned

end Token
end ClassAtlas.Markup
