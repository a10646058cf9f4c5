import RecordQuery.Number.Integer

/-!
# Dates

Days of the proleptic Gregorian calendar, with a year zero, and their numbers counted from the
first of January 1970.

Years are counted from March for the conversions, so that the leap day is the last day of its year
and the day within the year tells the month without asking whether the year is a leap year.
-/

namespace RecordQuery

structure Date where
  year : Int
  month : Nat
  day : Nat
  deriving DecidableEq

namespace Date

def isLeapYear (year : Int) : Bool :=
  year % 4 == 0 && (year % 100 != 0 || year % 400 == 0)

def daysInMonth (year : Int) (month : Nat) : Nat :=
  if month = 2 then if isLeapYear year then 29 else 28
  else if month = 4 || month = 6 || month = 9 || month = 11 then 30
  else 31

def isValid (d : Date) : Bool :=
  1 ≤ d.month && d.month ≤ 12 && 1 ≤ d.day && d.day ≤ daysInMonth d.year d.month

/-- The number of days from the first of March of year zero to the first of March of `year`. -/
def daysBeforeMarch (year : Int) : Int :=
  365 * year + year / 4 - year / 100 + year / 400

/-- The number of days from the first of March to the first day of a month counted from March. -/
def daysBeforeMonth (sinceMarch : Nat) : Nat :=
  (153 * sinceMarch + 2) / 5

/-- The number of days from the first of March of year zero to the first of January 1970. -/
def epochDays : Int := 719468

def toDays (d : Date) : Int :=
  let year := if d.month ≤ 2 then d.year - 1 else d.year
  let sinceMarch := if d.month ≤ 2 then d.month + 9 else d.month - 3
  daysBeforeMarch year + daysBeforeMonth sinceMarch + d.day - 1 - epochDays

/-- The day with a number counted from the first of January 1970. A cycle of 400 years is cut into
centuries, the last of which is a day longer, those into spans of four years, and those into
years, the last of which may be a day longer. -/
def ofDays (n : Int) : Date :=
  let days := n + epochDays
  let cycle := days / 146097
  let inCycle := (days % 146097).toNat
  let century := min (inCycle / 36524) 3
  let inCentury := inCycle - 36524 * century
  let inSpan := inCentury % 1461
  let yearOfSpan := min (inSpan / 365) 3
  let dayOfYear := inSpan - 365 * yearOfSpan
  let sinceMarch := (5 * dayOfYear + 2) / 153
  let year := 400 * cycle + 100 * century + 4 * (inCentury / 1461 : Nat) + yearOfSpan
  let day := dayOfYear - daysBeforeMonth sinceMarch + 1
  if sinceMarch < 10 then ⟨year, sinceMarch + 3, day⟩ else ⟨year + 1, sinceMarch - 9, day⟩

/-- The year in four digits, or with a sign and at least four digits if it does not fit those. -/
def writeYear (year : Int) : List Char :=
  if 0 ≤ year && year ≤ 9999 then Number.writePadded 4 year.natAbs
  else (if year < 0 then '-' else '+') :: Number.writePadded 4 year.natAbs

def write (d : Date) : List Char :=
  writeYear d.year ++ '-' :: Number.writePadded 2 d.month ++ '-' :: Number.writePadded 2 d.day

end Date

end RecordQuery
