/-!
# Decimal forms of doubles

A finite double is a sign and a whole number times a power of two, and its decimal forms are
computed from this exact value.

The shortest one is, of all decimals that round to the double, the one with the fewest digits,
and of several such the nearest.  Coarse decimal grids are tried before fine ones; on each grid
only the two neighbours of the value can lie in the interval of numbers that round to it.

The one with a fixed number of places is the exact value rounded to so many places; a value
halfway between two such decimals goes to the one whose last digit is even.
-/

namespace ClassAtlas.Decimal

/-! ## Binary fractions -/

/-- The value `± mantissa · 2 ^ exponent`. -/
structure Binary where
  negative : Bool
  mantissa : Nat
  exponent : Int
  deriving DecidableEq, Repr

namespace Binary

/-- The place value of the leading one of a mantissa, just above its fifty-two bits. -/
def leadingOne : Nat := 0x10000000000000

/-- The value of the bits of a finite double: one sign bit, eleven of exponent and
fifty-two of mantissa, with a hidden leading one unless the exponent bits are zero. -/
def ofBits (bits : Nat) : Binary :=
  let negative := bits / (0x800 * leadingOne) == 1
  let biased := bits / leadingOne % 0x800
  let fraction := bits % leadingOne
  if biased == 0 then { negative, mantissa := fraction, exponent := -1074 }
  else { negative, mantissa := leadingOne + fraction, exponent := Int.ofNat biased - 1075 }

/-- The exact value of a finite double. -/
def ofFloat (value : Float) : Binary :=
  ofBits value.toBits.toNat

end Binary

/-- Compares `left · 2 ^ twos` with `right · 10 ^ tens`. -/
def compareScaled (left : Nat) (twos : Int) (right : Nat) (tens : Int) : Ordering :=
  compare (left * Nat.pow 2 twos.toNat * Nat.pow 10 (-tens).toNat)
    (right * Nat.pow 10 tens.toNat * Nat.pow 2 (-twos).toNat)

/-- The whole part of `left · 2 ^ twos / 10 ^ tens`. -/
def floorScaled (left : Nat) (twos tens : Int) : Nat :=
  left * Nat.pow 2 twos.toNat * Nat.pow 10 (-tens).toNat /
    (Nat.pow 10 tens.toNat * Nat.pow 2 (-twos).toNat)

/-! ## The shortest decimal that reads back -/

/-- A decimal `digits · 10 ^ exponent`. -/
structure Digits where
  digits : Nat
  exponent : Int
  deriving DecidableEq, Repr

/-- The interval of numbers that round to a double, in quarters of its last place. -/
structure Rounding where
  low : Nat
  value : Nat
  high : Nat
  twos : Int
  closed : Bool

/-- The numbers that round to a positive double.  The gap below a power of two is
half as wide, and the ends belong to the interval when the mantissa is even. -/
def Rounding.of (binary : Binary) : Rounding :=
  let narrow := binary.mantissa == Binary.leadingOne && binary.exponent > -1074
  { low := 4 * binary.mantissa - (if narrow then 1 else 2)
    value := 4 * binary.mantissa
    high := 4 * binary.mantissa + 2
    twos := binary.exponent - 2
    closed := binary.mantissa % 2 == 0 }

/-- `candidate · 10 ^ tens` rounds to the double. -/
def Rounding.holds (rounding : Rounding) (candidate : Nat) (tens : Int) : Bool :=
  let below := compareScaled rounding.low rounding.twos candidate tens
  let above := compareScaled rounding.high rounding.twos candidate tens
  (below == .lt || (rounding.closed && below == .eq)) &&
    (above == .gt || (rounding.closed && above == .eq))

/-- The neighbour of the value on one grid that rounds to it, the nearer of two; an
exact tie goes to the even one. -/
def Rounding.onGrid (rounding : Rounding) (tens : Int) : Option Nat :=
  let floor := floorScaled rounding.value rounding.twos tens
  match rounding.holds floor tens, rounding.holds (floor + 1) tens with
  | true, false => some floor
  | false, true => some (floor + 1)
  | false, false => none
  | true, true =>
      match compareScaled (2 * rounding.value) rounding.twos (2 * floor + 1) tens with
      | .lt => some floor
      | .gt => some (floor + 1)
      | .eq => some (if floor % 2 == 0 then floor else floor + 1)

/-- Tries the grids from `tens` downwards. -/
def Rounding.search (rounding : Rounding) : Nat → Int → Digits
  | 0, tens => ⟨floorScaled rounding.value rounding.twos tens, tens⟩
  | steps + 1, tens =>
      match rounding.onGrid tens with
      | some digits => ⟨digits, tens⟩
      | none => rounding.search steps (tens - 1)

/-- The shortest decimal that rounds to a positive double.  A double has at most
seventeen significant digits, and the first grid tried is coarser than its value. -/
def shortest (binary : Binary) : Digits :=
  let top := (binary.exponent + Int.ofNat binary.mantissa.log2) * 30103 / 100000 + 2
  (Rounding.of binary).search 25 top

/-- A decimal point set `places` digits from the right. -/
def withPoint (digits : List Char) (places : Nat) : List Char :=
  let whole := digits.length - places
  digits.take whole ++ '.' :: digits.drop whole

/-- The text of a double: positional with at least one decimal from `1e-5` up to
below `1e16`, else with an exponent. -/
def shortestText (value : Float) : String :=
  let binary := Binary.ofFloat value
  let sign := if binary.negative then "-" else ""
  if binary.mantissa == 0 then sign ++ "0.0"
  else
    let decimal := shortest binary
    let digits := Nat.toDigits 10 decimal.digits
    let point := Int.ofNat digits.length + decimal.exponent
    let body :=
      if 0 ≤ decimal.exponent && point ≤ 16 then
        digits ++ List.replicate decimal.exponent.toNat '0' ++ ['.', '0']
      else if 0 < point && point ≤ 16 then withPoint digits (-decimal.exponent).toNat
      else if -5 < point && point ≤ 0 then
        '0' :: '.' :: List.replicate (-point).toNat '0' ++ digits
      else
        (if digits.length == 1 then digits else withPoint digits (digits.length - 1)) ++
          'e' :: (toString (point - 1)).toList
    sign ++ String.ofList body

/-! ## Decimals with a fixed number of places -/

/-- The nearest whole number to a quotient, a tie going to the even neighbour. -/
def roundHalfEven (numerator denominator : Nat) : Nat :=
  let floor := numerator / denominator
  let twice := 2 * (numerator % denominator)
  if twice < denominator then floor
  else if denominator < twice then floor + 1
  else if floor % 2 == 0 then floor
  else floor + 1

/-- The value in units of the last of `places` decimal places. -/
def Binary.inUnits (places : Nat) (binary : Binary) : Nat :=
  roundHalfEven (binary.mantissa * Nat.pow 2 binary.exponent.toNat * Nat.pow 10 places)
    (Nat.pow 2 (-binary.exponent).toNat)

/-- The text of a double with exactly `places` decimal places, at least one. -/
def fixedText (places : Nat) (value : Float) : String :=
  let binary := Binary.ofFloat value
  let digits := Nat.toDigits 10 (binary.inUnits places)
  let padded := List.replicate (places + 1 - digits.length) '0' ++ digits
  (if binary.negative then "-" else "") ++ String.ofList (withPoint padded places)

end ClassAtlas.Decimal
