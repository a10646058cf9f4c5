import RecordQuery.Number.Decimal
import RecordQuery.Number.Binary64

/-!
# Decimals near a double

`ofBinary64?` turns a double into a decimal with about as many digits as the double can carry. The
power of two in the double is traded for powers of five and ten without leaving 96 bits; the power
of ten that is left is brought into the range of a scale; and the digits that a double does not
determine are rounded away. It fails for magnitudes beyond the decimals. A double of which no digit
is left becomes a zero with its sign.

A number on the way is `coefficient * 10 ^ exponent`.
-/

namespace RecordQuery

namespace Number

namespace Decimal

/-- Multiplies by `5 ^ fives`: a factor two of the coefficient makes a ten, otherwise the factor
five goes in, and where it does not fit the coefficient is halved instead. -/
def raiseByFives : (fives : Nat) → (coefficient : Nat) → (exponent : Int) → Nat × Int
  | 0, m, e => (m, e)
  | k + 1, m, e =>
    if m % 2 = 0 then raiseByFives k (m / 2) (e + 1)
    else if 5 * m < bound then raiseByFives k (5 * m) e
    else raiseByFives k (m / 2) (e + 1)

/-- Divides by `5 ^ fives`: while there is room a ten is split and the two stays; without room the
five is divided out, unless too few tens are left. -/
def lowerByFives : (fives : Nat) → (coefficient : Nat) → (exponent : Int) → Option (Nat × Int)
  | 0, m, e => some (m, e)
  | k + 1, m, e =>
    if 2 * m < bound then lowerByFives k (2 * m) (e - 1)
    else if (k + 1 : Int) < 2 * e then none
    else lowerByFives k (m / 5) e

def raiseByTens : (tens : Nat) → (coefficient : Nat) → Option Nat
  | 0, m => some m
  | k + 1, m => if 10 * m < bound then raiseByTens k (10 * m) else none

def roundedTenth (m : Nat) : Nat :=
  if 5 ≤ m % 10 then m / 10 + 1 else m / 10

/-- Drops `count` digits, rounding at each; a coefficient that a division empties is zero. -/
def dropDigits : (count : Nat) → (coefficient : Nat) → Nat
  | 0, m => m
  | k + 1, m => if m / 10 = 0 then 0 else dropDigits k (roundedTenth m)

/-- Drops digits after the point, rounding at each, while the coefficient has more than 52 bits. -/
def dropExcess : (scale : Nat) → (coefficient : Nat) → Nat × Nat
  | 0, m => (m, 0)
  | k + 1, m => if 4503599627370496 ≤ m then dropExcess k (roundedTenth m) else (m, k + 1)

def dropZeros : (scale : Nat) → (coefficient : Nat) → Nat × Nat
  | 0, m => (m, 0)
  | k + 1, m => if m % 10 = 0 then dropZeros k (m / 10) else (m, k + 1)

def settle (negative : Bool) (coefficient : Nat) (exponent : Int) : Option Decimal := do
  let whole ← raiseByTens exponent.toNat coefficient
  let places := (-exponent).toNat
  let (m, scale) := dropExcess (min places maxScale) (dropDigits (places - maxScale) whole)
  let (m, scale) := dropZeros scale m
  ofParts? negative m scale

def ofBinary64? (x : Binary64) : Option Decimal :=
  if x.exponent ≤ 0 then
    let (m, e) := raiseByFives (-x.exponent).toNat x.significand x.exponent
    settle x.negative m e
  else do
    let (m, e) ← lowerByFives x.exponent.toNat x.significand x.exponent
    settle x.negative m e

end Decimal

end Number

end RecordQuery
