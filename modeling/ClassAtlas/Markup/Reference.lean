import ClassAtlas.Markup.Token
import ClassAtlas.Text.Ascii

/-!
# References and line breaks

What a piece of text or the value of an attribute stands for, once references have
been replaced and line breaks normalised.  The only named references are the five of
XML itself.
-/

namespace ClassAtlas.Markup

/-- The value of a digit in a base up to sixteen. -/
def digitValue? (base : Nat) (character : Char) : Option Nat :=
  let value :=
    if Text.isAsciiDigit character then character.toNat - '0'.toNat
    else if 'a' ≤ character && character ≤ 'f' then character.toNat - 'a'.toNat + 10
    else if 'A' ≤ character && character ≤ 'F' then character.toNat - 'A'.toNat + 10
    else base
  if value < base then some value else none

/-- The character of a code point; a code point that no character has stands for the
replacement character. -/
def characterOf (code : Nat) : Char :=
  if code.isValidChar then Char.ofNat code else '\uFFFD'

/-- Takes the digits and the semicolon of a character reference.  The number fits in
32 bits and the character is allowed in a document. -/
def scanNumber (base : Nat) (text : List Char) : Option (Char × List Char) :=
  let digits := text.takeWhile fun character => (digitValue? base character).isSome
  let code := digits.foldl
    (fun total character => total * base + (digitValue? base character).getD 0) 0
  match text.dropWhile fun character => (digitValue? base character).isSome with
  | ';' :: rest =>
      if digits.isEmpty || UInt32.size ≤ code || !isAllowed (characterOf code) then none
      else some (characterOf code, rest)
  | _ => none

/-- The named references and their characters. -/
def namedReferences : List (String × Char) :=
  [("lt;", '<'), ("gt;", '>'), ("amp;", '&'), ("quot;", '"'), ("apos;", '\'')]

/-- Takes a reference after its ampersand. -/
def scanReference (text : List Char) : Option (Char × List Char) :=
  match text with
  | '#' :: 'x' :: rest => scanNumber 16 rest
  | '#' :: rest => scanNumber 10 rest
  | _ => namedReferences.findSome? fun (name, character) =>
      (name.toList.isPrefixOf? text).map (character, ·)

theorem length_of_scanNumber {base : Nat} {text rest : List Char} {character : Char}
    (scanned : scanNumber base text = some (character, rest)) :
    rest.length < text.length := by
  simp only [scanNumber] at scanned
  split at scanned
  · rename_i after found
    have shrink := length_dropWhile_le
      (fun character => (digitValue? base character).isSome) text
    rw [found, List.length_cons] at shrink
    split at scanned
    · simp at scanned
    · simp only [Option.some.injEq, Prod.mk.injEq] at scanned
      obtain ⟨_, rfl⟩ := scanned
      omega
  · simp at scanned

theorem length_of_scanReference {text rest : List Char} {character : Char}
    (scanned : scanReference text = some (character, rest)) :
    rest.length ≤ text.length := by
  simp only [scanReference] at scanned
  split at scanned
  · have := length_of_scanNumber scanned
    simp only [List.length_cons]
    omega
  · have := length_of_scanNumber scanned
    simp only [List.length_cons]
    omega
  · obtain ⟨⟨name, named⟩, _, found⟩ := List.exists_of_findSome?_eq_some scanned
    simp only [Option.map_eq_some_iff, Prod.mk.injEq] at found
    obtain ⟨after, isPrefix, _, rfl⟩ := found
    rw [Text.isPrefixOf?_eq_some isPrefix]
    simp

/-- Adds a written character to a text whose latest character comes first.  A carriage
return becomes a line feed, alone as well as before one, as soon as the next written
character or the end shows that it is complete. -/
def pushWritten (latest : List Char) (character : Char) (last : Bool) : List Char :=
  match latest with
  | '\r' :: earlier =>
      if last && character == '\r' then '\n' :: '\n' :: earlier
      else if character == '\n' then '\n' :: earlier
      else character :: '\n' :: earlier
  | _ => if last && character == '\r' then '\n' :: latest else character :: latest

/-- The text that a piece of content stands for.  A character that a reference
produces, and a written one right behind it, are taken as they are. -/
def contentOf (text : List Char) : Option (List Char) :=
  go [] false text
where
  go (latest : List Char) (asIs : Bool) (text : List Char) : Option (List Char) :=
    match text with
    | [] => some latest.reverse
    | '&' :: rest =>
        match _scanned : scanReference rest with
        | some (character, rest) => go (character :: latest) true rest
        | none => none
    | character :: rest =>
        go (if asIs then character :: latest else pushWritten latest character rest.isEmpty)
          false rest
  termination_by text.length
  decreasing_by
    · have := length_of_scanReference _scanned
      simp only [List.length_cons]
      omega
    · simp

/-- The text of a section without references. -/
def verbatimOf (text : List Char) : List Char :=
  go [] text
where
  go (latest : List Char) : List Char → List Char
    | [] => latest.reverse
    | character :: rest => go (pushWritten latest character rest.isEmpty) rest

/-- The value that a written attribute value stands for: every line break or tab
written in it is one space. -/
def valueOf (text : List Char) : Option (List Char) :=
  match text with
  | [] => some []
  | '&' :: rest =>
      match _scanned : scanReference rest with
      | some (character, rest) => (valueOf rest).map (character :: ·)
      | none => none
  | '\r' :: '\n' :: rest => (valueOf rest).map (' ' :: ·)
  | character :: rest => (valueOf rest).map ((if isSpace character then ' ' else character) :: ·)
termination_by text.length
decreasing_by
  · have := length_of_scanReference _scanned
    simp only [List.length_cons]
    omega
  · simp only [List.length_cons]
    omega
  · simp

end ClassAtlas.Markup
