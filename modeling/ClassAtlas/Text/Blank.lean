/-!
# Blank text

The blank characters are those with the Unicode property `White_Space`.  Trimming
removes blanks from the ends of a text, and a text is blank when nothing else is
in it.  The functions work on character lists; `trimmed` and `IsBlankString` are
their forms on strings.
-/

namespace ClassAtlas.Text

/-- Membership in the Unicode property `White_Space`. -/
def isBlank (character : Char) : Bool :=
  let code := character.toNat
  (9 ≤ code && code ≤ 13) || code == 0x20 || code == 0x85 || code == 0xA0 ||
    code == 0x1680 || (0x2000 ≤ code && code ≤ 0x200A) || code == 0x2028 ||
    code == 0x2029 || code == 0x202F || code == 0x205F || code == 0x3000

/-- The text without its leading blanks. -/
def trimStart (text : List Char) : List Char :=
  text.dropWhile isBlank

/-- The text without its trailing blanks. -/
def trimEnd (text : List Char) : List Char :=
  (text.reverse.dropWhile isBlank).reverse

/-- The text without the blanks at either end. -/
def trim (text : List Char) : List Char :=
  trimEnd (trimStart text)

def isBlankText (text : List Char) : Bool :=
  text.all isBlank

/-- The string without the blanks at either end. -/
def trimmed (text : String) : String :=
  String.ofList (trim text.toList)

def isBlankString (text : String) : Bool :=
  isBlankText text.toList

@[simp] theorem trimmed_toList (text : String) :
    (trimmed text).toList = trim text.toList := by
  simp [trimmed]

end ClassAtlas.Text
