import RecordQuery.Number.Digits

/-!
# Binary floating point

A finite double-precision number is a signed integer of at most 53 bits times a power of two. It
is kept as those parts. Its operations compute with exact integers and round once: to the nearest
double, a tie going to the even significand. They fail only where the magnitude rounds past the
largest double.
-/

namespace RecordQuery

namespace Number

/-- The number `significand * 2 ^ exponent`, negated if so marked. Zero keeps its sign. -/
structure Binary64 where
  negative : Bool
  significand : Nat
  exponent : Int
  deriving DecidableEq

namespace Binary64

def powerOfTwo (n : Nat) : Nat :=
  Nat.pow 2 n

def significandBound : Nat := 9007199254740992

def minExponent : Int := -1074

def maxExponent : Int := 971

def zero (negative : Bool) : Binary64 :=
  ⟨negative, 0, minExponent⟩

def isZero (x : Binary64) : Bool :=
  x.significand == 0

/-- The natural number nearest to a quotient; a tie goes to the even one. -/
def nearestQuotient (numerator denominator : Nat) : Nat :=
  let quotient := numerator / denominator
  let twice := 2 * (numerator % denominator)
  if twice < denominator || (twice == denominator && quotient % 2 == 0) then quotient
  else quotient + 1

/-- The exponent of the largest power of two that does not exceed a positive quotient. -/
def floorLog2 (numerator denominator : Nat) : Int :=
  let estimate : Int := (Nat.log2 numerator : Int) - Nat.log2 denominator
  if denominator * powerOfTwo estimate.toNat ≤ numerator * powerOfTwo (-estimate).toNat then
    estimate
  else estimate - 1

def ofQuotient? (negative : Bool) (numerator denominator : Nat) : Option Binary64 :=
  let exponent := max (floorLog2 numerator denominator - 52) minExponent
  let significand := nearestQuotient (numerator * powerOfTwo (-exponent).toNat)
    (denominator * powerOfTwo exponent.toNat)
  let rounded : Binary64 :=
    if significand < significandBound then ⟨negative, significand, exponent⟩
    else ⟨negative, significand / 2, exponent + 1⟩
  if rounded.exponent ≤ maxExponent then some rounded else none

def ofNat? (n : Nat) : Option Binary64 :=
  if n = 0 then some (zero false) else ofQuotient? false n 1

def mul? (x y : Binary64) : Option Binary64 :=
  let negative := x.negative != y.negative
  let exponent := x.exponent + y.exponent
  if x.isZero || y.isZero then some (zero negative)
  else ofQuotient? negative (x.significand * y.significand * powerOfTwo exponent.toNat)
    (powerOfTwo (-exponent).toNat)

/-- The double nearest to a quotient; nothing is divided by zero. -/
def div? (x y : Binary64) : Option Binary64 :=
  let negative := x.negative != y.negative
  let exponent := x.exponent - y.exponent
  if y.isZero then none
  else if x.isZero then some (zero negative)
  else ofQuotient? negative (x.significand * powerOfTwo exponent.toNat)
    (y.significand * powerOfTwo (-exponent).toNat)

end Binary64

end Number

end RecordQuery
