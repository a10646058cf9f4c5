import RecordQuery.Number.Binary64

/-!
# Shortest decimal digits

Among the decimal numbers that round to a given double, some have the fewest digits; `shortest`
picks the one of those that is nearest to the double, and the even one of two that are equally
near.

The numbers that round to a double form an interval, whose ends belong to it exactly if the
significand is even. Numbers with a given count of digits form a grid; if the interval holds a
point of a grid at all, it holds one of the two neighbours of the double on that grid. So the grids
are tried from one digit on, and the first with a neighbour in the interval wins.

All quantities are natural numbers: the double, the ends of the interval and the grid points are
multiplied by one common denominator.
-/

namespace RecordQuery

namespace Number

namespace Binary64

structure Scientific where
  coefficient : Nat
  exponent : Int
  deriving DecidableEq

/-- The count of digits of the integer part of a positive quotient; for a quotient below one, minus
the count of zeros after the point. The quotient is below ten to this power, and not below a tenth
of that. -/
def decimalPoint (numerator denominator : Nat) : Int :=
  if denominator ≤ numerator then (writeNatural (numerator / denominator)).length
  else 1 - ((writeNatural ((denominator - 1) / numerator)).length : Int)

/-- The three quantities that decide a grid, over a common denominator: the double, the lower and
the upper end of its interval, all in quarters of the last binary place. The interval below a power
of two is half as long as the one above. -/
structure Interval where
  value : Nat
  low : Nat
  high : Nat
  closed : Bool

def interval (x : Binary64) : Interval :=
  let value := 4 * x.significand
  let lowStep := if x.significand == significandBound / 2 && minExponent < x.exponent then 1 else 2
  ⟨value, value - lowStep, value + 2, x.significand % 2 == 0⟩

def Interval.contains (i : Interval) (scale point : Nat) : Bool :=
  if i.closed then i.low * scale ≤ point && point ≤ i.high * scale
  else i.low * scale < point && point < i.high * scale

/-- The neighbour of a double on the grid of the given step that reads back as the double, if one
does; of two, the nearer. Values of the interval are multiplied by `scale` and grid points by
`step`. -/
def nearestOnGrid (i : Interval) (scale step : Nat) : Option Nat :=
  let below := i.value * scale / step
  let hitBelow := i.contains scale (below * step)
  let hitAbove := i.contains scale ((below + 1) * step)
  let toBelow := i.value * scale - below * step
  let toAbove := (below + 1) * step - i.value * scale
  if hitBelow && hitAbove then
    if toBelow < toAbove || (toBelow == toAbove && below % 2 == 0) then some below
    else some (below + 1)
  else if hitBelow then some below
  else if hitAbove then some (below + 1)
  else none

def shortestFrom (i : Interval) (quarter point : Int) : Nat → Nat → Option Scientific
  | 0, _ => none
  | fuel + 1, count =>
    let exponent := point - count
    let scale := powerOfTwo quarter.toNat * powerOfTen (-exponent).toNat
    let step := powerOfTen exponent.toNat * powerOfTwo (-quarter).toNat
    match nearestOnGrid i scale step with
    | some coefficient => some ⟨coefficient, exponent⟩
    | none => shortestFrom i quarter point fuel (count + 1)

def stripZeros : Nat → Scientific → Scientific
  | 0, s => s
  | fuel + 1, s =>
    if s.coefficient != 0 && s.coefficient % 10 == 0 then
      stripZeros fuel ⟨s.coefficient / 10, s.exponent + 1⟩
    else s

/-- The digits and the exponent of the shortest decimal number that reads back as the magnitude of
`x`. Seventeen digits always suffice. -/
def shortest (x : Binary64) : Scientific :=
  if x.isZero then ⟨0, 0⟩
  else
    let point := decimalPoint (x.significand * powerOfTwo x.exponent.toNat)
      (powerOfTwo (-x.exponent).toNat)
    match shortestFrom x.interval (x.exponent - 2) point 17 1 with
    | some s => stripZeros 17 s
    | none => ⟨x.significand, x.exponent⟩

end Binary64

end Number

end RecordQuery
