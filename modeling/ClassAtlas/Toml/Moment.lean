import ClassAtlas.Toml.Number

/-!
# Points in time

Dates, times of day, and both together with or without an offset.  A date has to exist
in the calendar; a minute may have a leap second.
-/

namespace ClassAtlas.Toml

/-- A number of exactly `count` digits. -/
def fixedDigits? (count : Nat) (text : List Char) : Option (Nat × List Char) :=
  let digits := text.take count
  if digits.length = count ∧ digits.all Text.isAsciiDigit then
    some (valueOf 10 digits, text.drop count)
  else none

/-- A number of two digits between two bounds. -/
def twoDigits? (least greatest : Nat) (text : List Char) : Option (Nat × List Char) :=
  (fixedDigits? 2 text).filter fun (value, _) => least ≤ value && value ≤ greatest

def after? (character : Char) : List Char → Option (List Char)
  | head :: rest => if head == character then some rest else none
  | [] => none

def isLeapYear (year : Nat) : Bool :=
  year % 4 == 0 && (year % 100 != 0 || year % 400 == 0)

def daysIn (year month : Nat) : Nat :=
  if month = 2 then if isLeapYear year then 29 else 28
  else if month ∈ [4, 6, 9, 11] then 30
  else 31

def afterDate? (text : List Char) : Option (List Char) := do
  let (year, rest) ← fixedDigits? 4 text
  let (month, rest) ← twoDigits? 1 12 (← after? '-' rest)
  let (_, rest) ← twoDigits? 1 (daysIn year month) (← after? '-' rest)
  return rest

/-- The text after a fraction of a second, if there is one. -/
def afterFraction? : List Char → Option (List Char)
  | '.' :: rest =>
      if rest.head?.any Text.isAsciiDigit then some (rest.dropWhile Text.isAsciiDigit)
      else none
  | text => some text

/-- The text after a time of day. -/
def afterTime? (text : List Char) : Option (List Char) := do
  let (_, rest) ← twoDigits? 0 23 text
  let (_, rest) ← twoDigits? 0 59 (← after? ':' rest)
  let (_, rest) ← twoDigits? 0 60 (← after? ':' rest)
  afterFraction? rest

/-- The text after an offset, if there is one. -/
def afterOffset? : List Char → Option (List Char)
  | head :: rest =>
      if head == 'Z' || head == 'z' then some rest
      else if head == '+' || head == '-' then do
        let (_, rest) ← twoDigits? 0 23 rest
        let (_, rest) ← twoDigits? 0 59 (← after? ':' rest)
        return rest
      else some (head :: rest)
  | [] => some []

/-- The text after the time of day that may follow a date, and its offset. -/
def afterTimeOfDate? : List Char → Option (List Char)
  | head :: rest =>
      if head == 'T' || head == 't' || head == ' ' then
        match afterTime? rest with
        | some rest => afterOffset? rest
        | none => some (head :: rest)
      else some (head :: rest)
  | [] => some []

/-- The text after a point in time. -/
def afterMoment? (text : List Char) : Option (List Char) :=
  match afterDate? text with
  | some rest => afterTimeOfDate? rest
  | none => afterTime? text

/-- A point in time, as a record of its written form. -/
def moment (text : List Char) : Option (Data × List Char) :=
  (afterMoment? text).map fun rest =>
    (.table [("moment", .text (String.ofList (text.take (text.length - rest.length))))],
      rest)

end ClassAtlas.Toml
