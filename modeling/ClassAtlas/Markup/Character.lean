/-!
# Characters of XML

The character classes of XML 1.0: the characters that a document may hold at all,
its spaces, and the characters of names.
-/

namespace ClassAtlas.Markup

/-- A character that may stand in a document. -/
def isAllowed (character : Char) : Bool :=
  if character.toNat < 0x20 then
    character == '\t' || character == '\n' || character == '\r'
  else character.toNat != 0xFFFE && character.toNat != 0xFFFF

/-- A space between parts of the markup. -/
def isSpace (character : Char) : Bool :=
  character == ' ' || character == '\t' || character == '\n' || character == '\r'

/-- A character beyond ASCII that may begin a name. -/
def isForeignNameStart (character : Char) : Bool :=
  let code := character.toNat
  (0xC0 ≤ code && code ≤ 0xD6) || (0xD8 ≤ code && code ≤ 0xF6) ||
    (0xF8 ≤ code && code ≤ 0x2FF) || (0x370 ≤ code && code ≤ 0x37D) ||
    (0x37F ≤ code && code ≤ 0x1FFF) || (0x200C ≤ code && code ≤ 0x200D) ||
    (0x2070 ≤ code && code ≤ 0x218F) || (0x2C00 ≤ code && code ≤ 0x2FEF) ||
    (0x3001 ≤ code && code ≤ 0xD7FF) || (0xF900 ≤ code && code ≤ 0xFDCF) ||
    (0xFDF0 ≤ code && code ≤ 0xFFFD) || (0x10000 ≤ code && code ≤ 0xEFFFF)

/-- A character that may begin a name without a colon. -/
def isNameStart (character : Char) : Bool :=
  character.isAlpha || character == '_' || isForeignNameStart character

/-- A character of a name without a colon. -/
def isNamePart (character : Char) : Bool :=
  isNameStart character || character.isDigit || character == '-' || character == '.' ||
    character.toNat == 0xB7 || (0x300 ≤ character.toNat && character.toNat ≤ 0x36F) ||
    (0x203F ≤ character.toNat && character.toNat ≤ 0x2040)

/-- The text without the spaces at its start. -/
def skipSpaces (text : List Char) : List Char :=
  text.dropWhile isSpace

def isSpaces (text : List Char) : Bool :=
  text.all isSpace

end ClassAtlas.Markup
