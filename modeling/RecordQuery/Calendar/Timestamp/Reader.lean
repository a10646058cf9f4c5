import RecordQuery.Calendar.Timestamp
import RecordQuery.Text.WhiteSpace

/-!
# Reading timestamps

Four notations, tried in this order:

* a date and a time of day with an offset from universal time, every number at its full width;
* a date and a time of day joined by the letter `T`;
* a date and a time of day, with any white space between them or none;
* a date alone, which stands for its midnight.

The last three are lenient: numbers may have fewer digits than their width and white space before
them, and a year with an explicit sign may have any number of digits. A text in them is taken as
universal time.

The readers take what they need from the front of a text and return it with the rest.
-/

namespace RecordQuery

namespace Timestamp

def expect (c : Char) : List Char → Option (List Char)
  | d :: cs => if d = c then some cs else none
  | [] => none

def takeFixed (width : Nat) (cs : List Char) : Option (Nat × List Char) :=
  if (cs.take width).length = width then
    (Number.readNatural (cs.take width)).map fun n => (n, cs.drop width)
  else none

def takeUpTo (width : Nat) (cs : List Char) : Option (Nat × List Char) :=
  let digits := (cs.take width).takeWhile Char.isDigit
  (Number.readNatural digits).map fun n => (n, cs.drop digits.length)

def takeSpaced (width : Nat) (cs : List Char) : Option (Nat × List Char) :=
  takeUpTo width (Text.trimStart cs)

/-- Takes a year: four digits at most, or a sign and any number of digits. -/
def takeYear (cs : List Char) : Option (Int × List Char) :=
  match Text.trimStart cs with
  | '-' :: rest => (takeUpTo rest.length rest).map fun (n, rest) => (-(n : Int), rest)
  | '+' :: rest => (takeUpTo rest.length rest).map fun (n, rest) => ((n : Int), rest)
  | rest => (takeUpTo 4 rest).map fun (n, rest) => ((n : Int), rest)

/-- Takes a point and digits, if there is a point, as nanoseconds. Digits past the ninth are
dropped. -/
def takeFraction : List Char → Option (Nat × List Char)
  | '.' :: cs =>
    let digits := cs.takeWhile Char.isDigit
    let kept := digits.take 9
    (Number.readNatural kept).map fun n =>
      (n * Number.powerOfTen (9 - kept.length), cs.dropWhile Char.isDigit)
  | cs => some (0, cs)

def isYearInRange (year : Int) : Bool :=
  -262143 ≤ year && year ≤ 262142

def date? (year : Int) (month day : Nat) : Option Date :=
  let d : Date := ⟨year, month, day⟩
  if d.isValid && isYearInRange year then some d else none

def time? (d : Date) (hour minute second nanos : Nat) : Option Timestamp :=
  if hour ≤ 23 && minute ≤ 59 && second ≤ 60 then some (ofParts d hour minute second nanos)
  else none

/-- The factor for a sign. The minus sign may be the one of typography. -/
def signFactor? (c : Char) : Option Int :=
  if c = '+' then some 1 else if c = '-' || c = '\u2212' then some (-1) else none

/-- Takes an offset from universal time, in seconds: the letter `Z`, or a sign, hours and
minutes. -/
def takeOffset : List Char → Option (Int × List Char)
  | [] => none
  | c :: cs =>
    if c = 'Z' || c = 'z' then some (0, cs)
    else do
      let sign ← signFactor? c
      let (hours, cs) ← takeFixed 2 cs
      let cs ← expect ':' cs
      let (minutes, cs) ← takeFixed 2 cs
      if hours ≤ 23 && minutes ≤ 59 then some (sign * (hours * 3600 + minutes * 60 : Nat), cs)
      else none

/-- Takes the mark between a date and a time of day: a letter `T` or a space. -/
def takeMark : List Char → Option (List Char)
  | c :: cs => if c = 'T' || c = 't' || c = ' ' then some cs else none
  | [] => none

def readWithOffset (cs : List Char) : Option Timestamp := do
  let (year, cs) ← takeFixed 4 cs
  let cs ← expect '-' cs
  let (month, cs) ← takeFixed 2 cs
  let cs ← expect '-' cs
  let (day, cs) ← takeFixed 2 cs
  let cs ← takeMark cs
  let (hour, cs) ← takeFixed 2 cs
  let cs ← expect ':' cs
  let (minute, cs) ← takeFixed 2 cs
  let cs ← expect ':' cs
  let (second, cs) ← takeFixed 2 cs
  let (nanos, cs) ← takeFraction cs
  let (offset, cs) ← takeOffset cs
  let date ← date? year month day
  let t ← time? date hour minute second nanos
  if cs.isEmpty then some ⟨t.seconds - offset, t.nanos⟩ else none

def takeDate (cs : List Char) : Option (Date × List Char) := do
  let (year, cs) ← takeYear cs
  let cs ← expect '-' cs
  let (month, cs) ← takeSpaced 2 cs
  let cs ← expect '-' cs
  let (day, cs) ← takeSpaced 2 cs
  let date ← date? year month day
  some (date, cs)

def readTime (date : Date) (cs : List Char) : Option Timestamp := do
  let (hour, cs) ← takeSpaced 2 cs
  let cs ← expect ':' cs
  let (minute, cs) ← takeSpaced 2 cs
  let cs ← expect ':' cs
  let (second, cs) ← takeSpaced 2 cs
  let (nanos, cs) ← takeFraction cs
  if cs.isEmpty then time? date hour minute second nanos else none

def readJoined (cs : List Char) : Option Timestamp := do
  let (date, cs) ← takeDate cs
  readTime date (← expect 'T' cs)

def readSpaced (cs : List Char) : Option Timestamp := do
  let (date, cs) ← takeDate cs
  readTime date cs

def readDate (cs : List Char) : Option Timestamp := do
  let (date, cs) ← takeDate cs
  if cs.isEmpty then some (ofDate date) else none

def read (cs : List Char) : Option Timestamp :=
  let cs := Text.trim cs
  (readWithOffset cs).or ((readJoined cs).or ((readSpaced cs).or (readDate cs)))

end Timestamp

end RecordQuery
