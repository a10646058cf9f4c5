import RecordQuery.Number.Binary64
import RecordQuery.Number.Integer

/-!
# Reading doubles

A decimal number is turned into a double in a few rounded steps. Its leading digits are taken as a
natural number for as long as that fits an unsigned machine word, and the double nearest to it is
multiplied or divided by the double nearest to a power of ten. Every step rounds, so the result may
be a neighbour of the double nearest to the number; it is that double itself if the digits have at
most 53 bits and the power of ten is a double too.

The power of ten is one of those below the largest double. A number that would have to be multiplied
by a larger one is too large, unless it is zero, and division by a larger one takes two steps.
-/

namespace RecordQuery

namespace Number

namespace Binary64

def maxPower : Nat := 308

/-- Takes digits behind those of `n` for as long as the number fits a word: the number, and how many
digits are left over. -/
def fillWord (n : Nat) : List Char → Nat × Nat
  | [] => (n, 0)
  | c :: cs =>
    let next := 10 * n + digitValue c
    if fitsUInt64 next then fillWord next cs else (n, cs.length + 1)

def raise? (x : Binary64) (exponent : Nat) : Option Binary64 :=
  if x.isZero then some x
  else if maxPower < exponent then none
  else (ofNat? (powerOfTen exponent)).bind x.mul?

/-- Divides by a power of ten. Two steps are enough for every exponent: what they leave of a word at
the largest powers is zero. -/
def lower? (x : Binary64) (exponent : Nat) : Option Binary64 :=
  if exponent ≤ maxPower then (ofNat? (powerOfTen exponent)).bind x.div?
  else do
    let y ← (ofNat? (powerOfTen maxPower)).bind x.div?
    (ofNat? (powerOfTen (min (exponent - maxPower) maxPower))).bind y.div?

/-- The double for a number with the given digits before and behind the point, times a power of
ten. -/
def ofDigits? (negative : Bool) (whole places : List Char) (exponent : Int) : Option Binary64 := do
  let (n, wholeLeft) := fillWord 0 whole
  let (n, placesLeft) := fillWord n places
  let x ← ofNat? n
  let exponent := exponent + wholeLeft + placesLeft - places.length
  let y ← if 0 ≤ exponent then x.raise? exponent.toNat else x.lower? (-exponent).toNat
  some { y with negative := negative }

end Binary64

end Number

end RecordQuery
