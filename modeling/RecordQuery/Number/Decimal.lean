import RecordQuery.Number.Integer

/-!
# Decimal numbers

A decimal number is a sign and a magnitude of at most 96 bits over a power of ten of at most 28. The
scale is part of the number as it is written: `1.5` and `1.50` are different decimals that compare
as equal. So is the sign of a zero, which shows where the number is written and counts for nothing
where it is compared.

Comparison brings both numbers over the product of their denominators, so it is the comparison of
the rational numbers they stand for.
-/

namespace RecordQuery

namespace Number

structure Decimal where
  negative : Bool
  magnitude : Nat
  scale : Nat
  magnitude_lt : magnitude < 79228162514264337593543950336
  scale_le : scale ≤ 28
  deriving DecidableEq

namespace Decimal

/-- One more than the largest magnitude: the 96th power of two. -/
def bound : Nat := 79228162514264337593543950336

def maxScale : Nat := 28

/-- The decimal with the given sign, magnitude and scale, if they are within the limits. -/
def ofParts? (negative : Bool) (magnitude scale : Nat) : Option Decimal :=
  if h : magnitude < bound ∧ scale ≤ maxScale then some ⟨negative, magnitude, scale, h.1, h.2⟩
  else none

def ofInt64 (n : Int64) : Decimal :=
  ⟨n.toInt < 0, n.toInt.natAbs, 0, by have := n.toInt_lt; have := n.le_toInt; omega, by decide⟩

def coefficient (d : Decimal) : Int :=
  if d.negative then -(d.magnitude : Int) else d.magnitude

def numeratorOver (d : Decimal) (other : Nat) : Int :=
  d.coefficient * (powerOfTen other : Nat)

def compare (a b : Decimal) : Ordering :=
  Ord.compare (a.numeratorOver b.scale) (b.numeratorOver a.scale)

instance : Ord Decimal := ⟨compare⟩

def digits (d : Decimal) : List Char :=
  writePadded (d.scale + 1) d.magnitude

def write (d : Decimal) : List Char :=
  let whole := d.digits.take (d.digits.length - d.scale)
  let places := d.digits.drop (d.digits.length - d.scale)
  let unsigned := if d.scale = 0 then whole else whole ++ '.' :: places
  if d.negative then '-' :: unsigned else unsigned

@[simp] theorem coefficient_ofInt64 (n : Int64) : (ofInt64 n).coefficient = n.toInt := by
  simp only [coefficient, ofInt64, decide_eq_true_eq]
  omega

@[simp] theorem scale_ofInt64 (n : Int64) : (ofInt64 n).scale = 0 := rfl

theorem ofParts?_of_fits (negative : Bool) {magnitude scale : Nat}
    (hm : magnitude < bound) (hs : scale ≤ maxScale) :
    ofParts? negative magnitude scale = some ⟨negative, magnitude, scale, hm, hs⟩ := by
  simp [ofParts?, hm, hs]

end Decimal

end Number

end RecordQuery
