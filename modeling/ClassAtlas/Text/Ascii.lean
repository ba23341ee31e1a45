/-!
# Letters, digits and numerals

Only the letters of ASCII have a case here: two texts that differ in the case of other letters
are different.  A numeral is a number in decimal digits, with a plus sign in front or without.
Reading goes from left to right and stops at the first fault.
-/

namespace ClassAtlas.Text

/-- The string with the capital letters of ASCII made small. -/
def lowered (text : String) : String :=
  String.ofList (text.toList.map Char.toLower)

/-- Equality up to the case of ASCII letters. -/
def sameIgnoringCase (left right : String) : Bool :=
  lowered left == lowered right

/-- A digit from 0 to 9. -/
def isAsciiDigit (character : Char) : Bool :=
  '0' ≤ character && character ≤ '9'

def isAsciiLetter (character : Char) : Bool :=
  ('a' ≤ character && character ≤ 'z') || ('A' ≤ character && character ≤ 'Z')

/-! ## Numerals -/

/-- Why a text is no numeral for a number below a bound. -/
inductive NumeralFault where
  | empty
  | invalidDigit
  | tooLarge
  deriving DecidableEq, Repr

def NumeralFault.message : NumeralFault → String
  | .empty => "cannot parse integer from empty string"
  | .invalidDigit => "invalid digit found in string"
  | .tooLarge => "number too large to fit in target type"

/-- The number so far, followed by one more digit. -/
def nextDigit (bound number : Nat) (character : Char) : Except NumeralFault Nat :=
  if isAsciiDigit character then
    let next := 10 * number + (character.toNat - '0'.toNat)
    if next < bound then .ok next else .error .tooLarge
  else .error .invalidDigit

def digitsBelow (bound : Nat) (digits : List Char) : Except NumeralFault Nat :=
  if digits.isEmpty then .error .invalidDigit else digits.foldlM (nextDigit bound) 0

/-- Reads a numeral for a number below a bound. -/
def numeralBelow (bound : Nat) : List Char → Except NumeralFault Nat
  | [] => .error .empty
  | '+' :: digits => digitsBelow bound digits
  | digits => digitsBelow bound digits

/-- The numbers of 64 bits lie below this one. -/
def wordBound : Nat := UInt64.size

end ClassAtlas.Text
