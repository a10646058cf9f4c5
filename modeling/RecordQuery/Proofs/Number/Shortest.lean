import RecordQuery.Number.Binary64.Shortest
import RecordQuery.Proofs.Number.Doubles

/-!
# The shortest digits of large doubles

The number that is found on a grid lies in the interval of the double, so it is at most half a
binary place below it. Where the double is a whole number of at least seventeen digits, every grid
that is tried consists of whole numbers, and what is found has at most seventeen digits and zeros
behind them (`Binary64.shortest_spec`).
-/

namespace RecordQuery

namespace Number

namespace Binary64

section Grids

variable {i : Interval}

theorem low_le_of_contains {scale point : Nat} (h : i.contains scale point = true) :
    i.low * scale ≤ point := by
  unfold Interval.contains at h
  split at h
  · rw [Bool.and_eq_true, decide_eq_true_eq] at h
    exact h.1
  · rw [Bool.and_eq_true, decide_eq_true_eq] at h
    exact h.1.le

/-- The point that is found on a grid lies in the interval, and is one of the two neighbours of the
double. -/
theorem nearestOnGrid_spec {scale step c : Nat} (h : nearestOnGrid i scale step = some c) :
    i.contains scale (c * step) = true ∧
      (c = i.value * scale / step ∨ c = i.value * scale / step + 1) := by
  unfold nearestOnGrid at h
  extract_lets below hitBelow hitAbove toBelow toAbove at h
  split at h
  · next hboth =>
      rw [Bool.and_eq_true] at hboth
      split at h
      · obtain rfl := Option.some.inj h
        exact ⟨hboth.1, .inl rfl⟩
      · obtain rfl := Option.some.inj h
        exact ⟨hboth.2, .inr rfl⟩
  · split at h
    · next hbelow =>
        obtain rfl := Option.some.inj h
        exact ⟨hbelow, .inl rfl⟩
    · split at h
      · next habove =>
          obtain rfl := Option.some.inj h
          exact ⟨habove, .inr rfl⟩
      · cases h

/-- The number that is found has one of the counts of digits that are tried, and is what its grid
has to offer. -/
theorem shortestFrom_spec {quarter point : Int} {fuel count : Nat} {s : Scientific}
    (h : shortestFrom i quarter point fuel count = some s) :
    ∃ k < count + fuel, s.exponent = point - k ∧
      nearestOnGrid i (powerOfTwo quarter.toNat * powerOfTen (-s.exponent).toNat)
        (powerOfTen s.exponent.toNat * powerOfTwo (-quarter).toNat) = some s.coefficient := by
  induction fuel generalizing count with
  | zero => cases h
  | succ fuel ih =>
      rw [shortestFrom] at h
      split at h
      · next c hfound =>
          cases h
          exact ⟨count, by omega, rfl, hfound⟩
      · rcases ih h with ⟨k, hk, hs⟩
        exact ⟨k, by omega, hs⟩

end Grids

theorem stripZeros_spec (fuel : Nat) {s : Scientific} (hs : 0 ≤ s.exponent) :
    (stripZeros fuel s).coefficient ≤ s.coefficient ∧ 0 ≤ (stripZeros fuel s).exponent ∧
      (stripZeros fuel s).coefficient * 10 ^ (stripZeros fuel s).exponent.toNat =
        s.coefficient * 10 ^ s.exponent.toNat := by
  induction fuel generalizing s with
  | zero => exact ⟨le_rfl, hs, rfl⟩
  | succ fuel ih =>
      rw [stripZeros]
      split
      · next hzero =>
          rw [Bool.and_eq_true, beq_iff_eq] at hzero
          rcases ih (s := ⟨s.coefficient / 10, s.exponent + 1⟩) (by dsimp only; omega) with
            ⟨hle, hexponent, hvalue⟩
          refine ⟨hle.trans (Nat.div_le_self _ _), hexponent, hvalue.trans ?_⟩
          have hsucc : (s.exponent + 1).toNat = s.exponent.toNat + 1 := by omega
          rw [hsucc, pow_succ', ← mul_assoc, Nat.div_mul_cancel (Nat.dvd_of_mod_eq_zero hzero.2)]
      · exact ⟨le_rfl, hs, rfl⟩

theorem lt_pow_length_writeNatural (n : Nat) : n < 10 ^ (writeNatural n).length :=
  (Nat.length_toDigits_le_iff (by decide) Nat.length_toDigits_pos).1 le_rfl

theorem decimalPoint_one {n : Nat} (hn : 0 < n) : decimalPoint n 1 = (writeNatural n).length := by
  rw [decimalPoint, if_pos (Nat.one_le_of_lt hn), Nat.div_one]

theorem low_le_value (x : Binary64) : x.interval.low ≤ x.interval.value :=
  Nat.sub_le _ _

theorem interval_value_mul {x : Binary64} (h : 2 ≤ x.exponent) :
    x.interval.value * 2 ^ (x.exponent.toNat - 2) = x.significand * 2 ^ x.exponent.toNat := by
  have hsplit : x.exponent.toNat = x.exponent.toNat - 2 + 2 := by omega
  rw [hsplit, pow_add, Nat.add_sub_cancel]
  change 4 * x.significand * 2 ^ (x.exponent.toNat - 2) = _
  ring

/-- The number that is found for a whole double of at least seventeen digits, before zeros at its
end are divided out. -/
theorem shortestFrom_whole {x : Binary64} {s : Scientific} (hexponent : 2 ≤ x.exponent)
    (hlarge : 10 ^ 16 ≤ x.significand * 2 ^ x.exponent.toNat)
    (h : shortestFrom x.interval (x.exponent - 2)
      (writeNatural (x.significand * 2 ^ x.exponent.toNat)).length 17 1 = some s) :
    s.coefficient ≤ 10 ^ 17 ∧ 0 ≤ s.exponent ∧
      x.interval.low * 2 ^ (x.exponent.toNat - 2) ≤ s.coefficient * 10 ^ s.exponent.toNat := by
  have hlt := lt_pow_length_writeNatural (x.significand * 2 ^ x.exponent.toNat)
  have hlength : 16 < (writeNatural (x.significand * 2 ^ x.exponent.toNat)).length :=
    (Nat.pow_lt_pow_iff_right (by decide)).1 (hlarge.trans_lt hlt)
  rcases shortestFrom_spec h with ⟨k, hk, hs, hgrid⟩
  have hscale : powerOfTwo (x.exponent - 2).toNat * powerOfTen (-s.exponent).toNat =
      2 ^ (x.exponent.toNat - 2) := by
    have htwo : (x.exponent - 2).toNat = x.exponent.toNat - 2 := by omega
    have hten : (-s.exponent).toNat = 0 := by omega
    rw [htwo, hten]
    exact Nat.mul_one _
  have hstep : powerOfTen s.exponent.toNat * powerOfTwo (-(x.exponent - 2)).toNat =
      10 ^ s.exponent.toNat := by
    have htwo : (-(x.exponent - 2)).toNat = 0 := by omega
    rw [htwo]
    exact Nat.mul_one _
  rw [hscale, hstep] at hgrid
  rcases nearestOnGrid_spec hgrid with ⟨hcontains, hneighbour⟩
  refine ⟨?_, by omega, low_le_of_contains hcontains⟩
  have hquotient :
      x.interval.value * 2 ^ (x.exponent.toNat - 2) / 10 ^ s.exponent.toNat < 10 ^ k := by
    rw [Nat.div_lt_iff_lt_mul (by positivity), interval_value_mul hexponent, ← pow_add]
    convert hlt using 2
    omega
  have hpow : 10 ^ k ≤ 10 ^ 17 := Nat.pow_le_pow_right (by decide) (by omega)
  omega

/-- The shortest number for a whole double of at least seventeen digits: a coefficient of at most
seventeen digits or a power of ten, zeros behind it, and a value that is not below the interval. -/
theorem shortest_spec {x : Binary64} (hx : x.IsDouble) (hexponent : 2 ≤ x.exponent)
    (hlarge : 10 ^ 16 ≤ x.significand * 2 ^ x.exponent.toNat) :
    x.shortest.coefficient ≤ 10 ^ 17 ∧ 0 ≤ x.shortest.exponent ∧
      x.interval.low * 2 ^ (x.exponent.toNat - 2) ≤
        x.shortest.coefficient * 10 ^ x.shortest.exponent.toNat := by
  have hpositive : 0 < x.significand * 2 ^ x.exponent.toNat := by omega
  have hzero : ¬ x.isZero = true := by
    rw [isZero, beq_iff_eq]
    exact (Nat.pos_of_mul_pos_right hpositive).ne'
  have hpoint : decimalPoint (x.significand * powerOfTwo x.exponent.toNat)
      (powerOfTwo (-x.exponent).toNat) =
        (writeNatural (x.significand * 2 ^ x.exponent.toNat)).length := by
    have hwhole : (-x.exponent).toNat = 0 := by omega
    rw [hwhole]
    exact decimalPoint_one hpositive
  rw [shortest, if_neg hzero]
  dsimp only
  rw [hpoint]
  split
  · next s hfound =>
      rcases shortestFrom_whole hexponent hlarge hfound with ⟨hcoefficient, hs, hlow⟩
      rcases stripZeros_spec 17 hs with ⟨hle, hstripped, hvalue⟩
      exact ⟨hle.trans hcoefficient, hstripped, hlow.trans_eq hvalue.symm⟩
  · -- no grid had a number to offer: the double stands for itself, and ten is more than two
    have hsignificand := hx.significand_lt
    rw [significandBound] at hsignificand
    refine ⟨by dsimp only; omega, by dsimp only; omega, ?_⟩
    calc x.interval.low * 2 ^ (x.exponent.toNat - 2)
        ≤ x.interval.value * 2 ^ (x.exponent.toNat - 2) := by gcongr; exact low_le_value x
      _ = x.significand * 2 ^ x.exponent.toNat := interval_value_mul hexponent
      _ ≤ x.significand * 10 ^ x.exponent.toNat := by gcongr; decide

end Binary64

end Number

end RecordQuery
