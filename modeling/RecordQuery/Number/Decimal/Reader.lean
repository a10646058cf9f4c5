import RecordQuery.Number.Decimal

/-!
# Reading decimal numbers

There are two notations. The plain one is an optional sign, digits, and at most one point, which
may stand before the first digit or after the last; once a digit has been seen, underscores may
separate digits. The scientific one adds the letter `e` and an exponent of at most 28, by which the
point is moved.

The digits are taken one by one into the magnitude. When the number has 28 digits after the
point, or when the next digit after the point would push the magnitude over its bound, the
number is complete: the first digit that does not fit decides whether it is rounded up, a half
going up, and the others are checked and dropped. Too many digits before the point are an error.
A zero in plain notation has no sign.

An underscore in the place of the deciding digit counts as a zero, unless the magnitude had
already outgrown a machine word; then the underscores are passed over.

Moving the point to the right lowers the scale, and past the last place it adds zeros to the
magnitude. Moving it to the left raises the scale, and places beyond the largest scale are rounded
away, a half going up. A number that this leaves without a digit is a zero that keeps its sign.
-/

namespace RecordQuery

namespace Number

namespace Decimal

def wideThreshold : Nat := 1844674407370954906

def isDigitOrSeparator (c : Char) : Bool :=
  c.isDigit || c == '_'

/-- One more in the last place. If that overflows the magnitude, the last place is given up. -/
def roundUp (magnitude scale : Nat) : Option (Nat × Nat) :=
  if magnitude + 1 < bound then some (magnitude + 1, scale)
  else if scale = 0 then none
  else some ((magnitude + 5) / 10, scale - 1)

/-- Ends a number that is complete: the first character left decides the rounding. -/
def finish (magnitude scale : Nat) : List Char → Option (Nat × Nat)
  | [] => some (magnitude, scale)
  | c :: cs =>
    if isDigitOrSeparator c && cs.all isDigitOrSeparator then
      if c.isDigit && 5 ≤ digitValue c then roundUp magnitude scale
      else some (magnitude, scale)
    else none

/-- What decides the rounding after the last place that fits: underscores are passed over behind a
magnitude that was wide before its last digit. -/
def decisive (before : Nat) (cs : List Char) : List Char :=
  if wideThreshold ≤ before then cs.dropWhile (· == '_') else cs

/-- Reads digits into a magnitude. `places` counts the digits after the point and is absent
before it; `started` says that a digit has been seen. -/
def readDigits (magnitude : Nat) (places : Option Nat) (started : Bool) :
    List Char → Option (Nat × Nat)
  | [] => if started then some (magnitude, places.getD 0) else none
  | c :: cs =>
    if c.isDigit then
      let next := 10 * magnitude + digitValue c
      match places with
      | none => if next < bound then readDigits next none true cs else none
      | some scale =>
        if next < bound then
          if scale + 1 < maxScale then readDigits next (some (scale + 1)) true cs
          else finish next (scale + 1) (decisive magnitude cs)
        else finish magnitude scale (c :: cs)
    else if c == '.' && places.isNone then readDigits magnitude (some 0) started cs
    else if c == '_' && started then readDigits magnitude places started cs
    else none

def readUnsigned (cs : List Char) : Option (Nat × Nat) :=
  readDigits 0 none false cs

/-- Reads a number behind a sign; a minus sign is lost on a zero. -/
def readMagnitude (negative : Bool) (cs : List Char) : Option Decimal :=
  (readUnsigned cs).bind fun (magnitude, scale) =>
    ofParts? (negative && magnitude != 0) magnitude scale

def readPlain : List Char → Option Decimal
  | '-' :: cs => readMagnitude true cs
  | '+' :: cs => readMagnitude false cs
  | cs => readMagnitude false cs

/-- A magnitude without its last `count` digits. The first of those decides the rounding, a half
going up. -/
def dropRounding (magnitude : Nat) : (count : Nat) → Nat
  | 0 => magnitude
  | count + 1 => (magnitude / powerOfTen count + 5) / 10

/-- The number with the point moved to the right. Where the places after the point do not suffice,
the magnitude grows instead. -/
def movePointRight (d : Decimal) (exponent : Nat) : Option Decimal :=
  ofParts? d.negative (d.magnitude * powerOfTen (exponent - d.scale)) (d.scale - exponent)

/-- The number with the point moved to the left. Places beyond the largest scale are rounded
away. -/
def movePointLeft (d : Decimal) (exponent : Nat) : Option Decimal :=
  let excess := d.scale + exponent - maxScale
  ofParts? d.negative (dropRounding d.magnitude excess) (d.scale + exponent - excess)

def isExponentMark (c : Char) : Bool :=
  c == 'e' || c == 'E'

def readExponent (cs : List Char) : Option Nat :=
  (readNatural (match cs with
    | '+' :: rest => rest
    | rest => rest)).filter fun exponent => exponent ≤ maxScale

def readScientific (cs : List Char) : Option Decimal := do
  let d ← readPlain (cs.takeWhile fun c => !isExponentMark c)
  match (cs.dropWhile fun c => !isExponentMark c).drop 1 with
  | '-' :: exponent => movePointLeft d (← readExponent exponent)
  | exponent => movePointRight d (← readExponent exponent)

def read (cs : List Char) : Option Decimal :=
  (readPlain cs).or (readScientific cs)

end Decimal

end Number

end RecordQuery
