import ClassAtlas.Data
import ClassAtlas.Text.Ascii
import ClassAtlas.Toml.Text

/-!
# Numbers

Integers and floating-point numbers of TOML.  Single underscores may stand between
digits.  An integer has to fit into 64 bits with a sign; a positive number that is too
large for a double is not accepted.
-/

namespace ClassAtlas.Toml

/-- Digits of a kind, with single underscores between them, at the start of a text. -/
def moreDigits (isDigit : Char → Bool) : List Char → List Char × List Char
  | '_' :: character :: rest =>
      if isDigit character then prepend character (moreDigits isDigit rest)
      else ([], '_' :: character :: rest)
  | character :: rest =>
      if isDigit character then prepend character (moreDigits isDigit rest)
      else ([], character :: rest)
  | [] => ([], [])

/-- At least one digit of a kind. -/
def digits? (isDigit : Char → Bool) (text : List Char) :
    Option (List Char × List Char) :=
  if text.head?.any isDigit then some (moreDigits isDigit text) else none

/-- A sign, if there is one, and whether it is a minus. -/
def takeSign : List Char → Bool × List Char
  | '-' :: rest => (true, rest)
  | '+' :: rest => (false, rest)
  | text => (false, text)

/-- The digits of a decimal number, which has no zero in front. -/
def decimalDigits? : List Char → Option (List Char × List Char)
  | '0' :: rest => some (['0'], rest)
  | text => digits? Text.isAsciiDigit text

/-- The value of digits to a base. -/
def valueOf (base : Nat) (digits : List Char) : Nat :=
  digits.foldl (fun number digit => base * number + (hexValue? digit).getD 0) 0

/-- The integers that fit into 64 bits with a sign. -/
def inRange? (value : Int) : Option Int :=
  if Int64.minValue.toInt ≤ value ∧ value ≤ Int64.maxValue.toInt then some value else none

def isDigitBelow (base : Nat) (character : Char) : Bool :=
  (hexValue? character).any (· < base)

/-- An integer to a base other than ten. -/
def basedInteger (base : Nat) (text : List Char) : Option (Data × List Char) := do
  let (digits, rest) ← digits? (isDigitBelow base) text
  let value ← inRange? (Int.ofNat (valueOf base digits))
  return (.integer value, rest)

def integer : List Char → Option (Data × List Char)
  | '0' :: 'x' :: rest => basedInteger 16 rest
  | '0' :: 'o' :: rest => basedInteger 8 rest
  | '0' :: 'b' :: rest => basedInteger 2 rest
  | text => do
      let (negative, rest) := takeSign text
      let (digits, rest) ← decimalDigits? rest
      let size := Int.ofNat (valueOf 10 digits)
      let value ← inRange? (if negative then -size else size)
      return (.integer value, rest)

/-- The exponent at the start of a text. -/
def exponent? : List Char → Option (Int × List Char)
  | letter :: rest =>
      if letter == 'e' || letter == 'E' then do
        let (negative, rest) := takeSign rest
        let (digits, rest) ← digits? Text.isAsciiDigit rest
        let size := Int.ofNat (valueOf 10 digits)
        return (if negative then -size else size, rest)
      else none
  | [] => none

/-- A power of ten beyond which no double but zero and infinity lies. -/
def farPower : Int := 400

/-- The double nearest to `mantissa` times a power of ten. -/
def scaled (mantissa : Nat) (power : Int) : Float :=
  let size := power + (Nat.toDigits 10 mantissa).length
  if mantissa = 0 || size < -farPower then 0.0
  else if size > farPower then 1.0 / 0.0
  else Float.ofScientific mantissa (power < 0) power.natAbs

/-- The number with these digits before and after the point, unless it is too large. -/
def decimal? (negative : Bool) (whole fraction : List Char) (exponent : Int) :
    Option Data :=
  let size := scaled (valueOf 10 (whole ++ fraction)) (exponent - Int.ofNat fraction.length)
  if negative then some (.decimal (-size))
  else if size.isInf then none
  else some (.decimal size)

/-- A floating-point number that is written with digits. -/
def decimal (text : List Char) : Option (Data × List Char) := do
  let (negative, rest) := takeSign text
  let (whole, rest) ← decimalDigits? rest
  let (fraction, rest, isPointed) ← match rest with
    | '.' :: rest => (digits? Text.isAsciiDigit rest).map fun (digits, rest) =>
        (digits, rest, true)
    | rest => some ([], rest, false)
  let (exponent, rest) ← match exponent? rest with
    | some found => some found
    | none => if isPointed then some (0, rest) else none
  return (← decimal? negative whole fraction exponent, rest)

/-- Infinity or what is not a number. -/
def specialDecimal (text : List Char) : Option (Data × List Char) :=
  let (negative, rest) := takeSign text
  match rest with
  | 'i' :: 'n' :: 'f' :: rest =>
      some (.decimal (if negative then -1.0 / 0.0 else 1.0 / 0.0), rest)
  | 'n' :: 'a' :: 'n' :: rest => some (.decimal (0.0 / 0.0), rest)
  | _ => none

def number (text : List Char) : Option (Data × List Char) :=
  (decimal text).orElse fun _ => (specialDecimal text).orElse fun _ => integer text

end ClassAtlas.Toml
