import ClassAtlas.Toml.Reader

/-!
# Quoted text

The four ways to quote a text in TOML.  Between double quotes a backslash begins an
escape; between single quotes each character stands for itself.  Between three quotes a
text may go over several lines, and the line end after the opening quotes is not part of
it.
-/

namespace ClassAtlas.Toml

/-- A character that stands for itself between double quotes. -/
def isUnescaped (character : Char) : Bool :=
  isPlain character && character != '"' && character != '\\'

/-- A character that may stand between single quotes. -/
def isLiteral (character : Char) : Bool :=
  isPlain character && character != '\''

def hexValue? (character : Char) : Option Nat :=
  if '0' ≤ character && character ≤ '9' then some (character.toNat - '0'.toNat)
  else if 'a' ≤ character && character ≤ 'f' then some (character.toNat - 'a'.toNat + 10)
  else if 'A' ≤ character && character ≤ 'F' then some (character.toNat - 'A'.toNat + 10)
  else none

/-- The character whose number has these hexadecimal digits, if there is one. -/
def scalar? (digits : List Char) : Option Char := do
  let values ← digits.mapM hexValue?
  let code := values.foldl (fun number digit => 16 * number + digit) 0
  if code.isValidChar then some (Char.ofNat code) else none

/-- The character that a letter after a backslash stands for. -/
def escape? : Char → Option Char
  | 'b' => some '\x08'
  | 't' => some '\t'
  | 'n' => some '\n'
  | 'f' => some '\x0c'
  | 'r' => some '\r'
  | '"' => some '"'
  | '\\' => some '\\'
  | _ => none

/-- Puts a character in front of a text that was read. -/
def prepend (character : Char) (read : List Char × List Char) : List Char × List Char :=
  (character :: read.1, read.2)

/-- The text up to the closing double quote, and what follows that quote. -/
def basicBody : List Char → Option (List Char × List Char)
  | [] => none
  | '"' :: rest => some ([], rest)
  | '\\' :: 'u' :: a :: b :: c :: d :: rest => do
      let character ← scalar? [a, b, c, d]
      return prepend character (← basicBody rest)
  | '\\' :: 'U' :: a :: b :: c :: d :: e :: f :: g :: h :: rest => do
      let character ← scalar? [a, b, c, d, e, f, g, h]
      return prepend character (← basicBody rest)
  | '\\' :: letter :: rest => do
      let character ← escape? letter
      return prepend character (← basicBody rest)
  | character :: rest =>
      if isUnescaped character then (basicBody rest).map (prepend character) else none

/-- A backslash before this text ends the line: blanks and line ends up to the next
character do not count. -/
def endsLine (text : List Char) : Bool :=
  (afterLineEnd? (skipBlanks text)).isSome

/-- The text over several lines up to the closing double quotes, and what follows them.
One or two quotes right before the closing ones belong to the text.  While `isJoining`,
blanks and line ends do not count. -/
def longBasicBody (isJoining : Bool) : List Char → Option (List Char × List Char)
  | [] => none
  | '"' :: '"' :: '"' :: '"' :: '"' :: rest => some (['"', '"'], rest)
  | '"' :: '"' :: '"' :: '"' :: rest => some (['"'], rest)
  | '"' :: '"' :: '"' :: rest => some ([], rest)
  | '"' :: rest => (longBasicBody false rest).map (prepend '"')
  | '\n' :: rest =>
      if isJoining then longBasicBody true rest
      else (longBasicBody false rest).map (prepend '\n')
  | '\r' :: '\n' :: rest =>
      if isJoining then longBasicBody true rest
      else (longBasicBody false rest).map (prepend '\n')
  | '\\' :: 'u' :: a :: b :: c :: d :: rest => do
      let character ← scalar? [a, b, c, d]
      return prepend character (← longBasicBody false rest)
  | '\\' :: 'U' :: a :: b :: c :: d :: e :: f :: g :: h :: rest => do
      let character ← scalar? [a, b, c, d, e, f, g, h]
      return prepend character (← longBasicBody false rest)
  | '\\' :: letter :: rest =>
      if endsLine (letter :: rest) then longBasicBody true (letter :: rest)
      else do
        let character ← escape? letter
        return prepend character (← longBasicBody false rest)
  | character :: rest =>
      if isJoining && isBlank character then longBasicBody true rest
      else if isUnescaped character then
        (longBasicBody false rest).map (prepend character)
      else none

/-- The text up to the closing single quote, and what follows that quote. -/
def literalBody (text : List Char) : Option (List Char × List Char) :=
  match text.dropWhile isLiteral with
  | '\'' :: rest => some (text.takeWhile isLiteral, rest)
  | _ => none

/-- The text over several lines up to the closing single quotes, and what follows them.
One or two quotes right before the closing ones belong to the text. -/
def longLiteralBody : List Char → Option (List Char × List Char)
  | [] => none
  | '\'' :: '\'' :: '\'' :: '\'' :: '\'' :: rest => some (['\'', '\''], rest)
  | '\'' :: '\'' :: '\'' :: '\'' :: rest => some (['\''], rest)
  | '\'' :: '\'' :: '\'' :: rest => some ([], rest)
  | '\'' :: rest => (longLiteralBody rest).map (prepend '\'')
  | '\n' :: rest => (longLiteralBody rest).map (prepend '\n')
  | '\r' :: '\n' :: rest => (longLiteralBody rest).map (prepend '\n')
  | character :: rest =>
      if isLiteral character then (longLiteralBody rest).map (prepend character) else none

/-- The text without a line end at its start. -/
def withoutLineEnd (text : List Char) : List Char :=
  (afterLineEnd? text).getD text

def shortText : List Char → Option (List Char × List Char)
  | '"' :: rest => basicBody rest
  | '\'' :: rest => literalBody rest
  | _ => none

def quotedText : List Char → Option (List Char × List Char)
  | '"' :: '"' :: '"' :: rest => longBasicBody false (withoutLineEnd rest)
  | '\'' :: '\'' :: '\'' :: rest => longLiteralBody (withoutLineEnd rest)
  | text => shortText text

end ClassAtlas.Toml
