import Mathlib.Algebra.Order.Field.Power
import Mathlib.Algebra.Order.Field.Rat
import Mathlib.Tactic.Linarith
import Mathlib.Tactic.Positivity
import Mathlib.Tactic.Ring
import RecordQuery.Number.Binary64.Reader

/-!
# The parts of a double

A finite double has one pair of a significand and an exponent: the significand has 53 bits, except
at the least exponent, where it may have fewer (`Binary64.IsDouble`). Every quotient that is rounded
to a double is given by such a pair (`Binary64.isDouble_of_ofQuotient?`), and so is every number
that is read (`Binary64.isDouble_of_ofDigits?`).

Quotients over a power of two are compared with each other as rational numbers.
-/

namespace RecordQuery

namespace Number

namespace Binary64

structure IsDouble (x : Binary64) : Prop where
  significand_lt : x.significand < significandBound
  le_exponent : minExponent ≤ x.exponent
  exponent_le : x.exponent ≤ maxExponent
  full : x.exponent = minExponent ∨ significandBound / 2 ≤ x.significand

def magnitude (x : Binary64) : ℚ :=
  x.significand * 2 ^ x.exponent

theorem isDouble_zero (negative : Bool) : IsDouble (zero negative) where
  significand_lt := Nat.zero_lt_succ _
  le_exponent := le_refl minExponent
  exponent_le := show minExponent ≤ maxExponent by decide
  full := .inl rfl

theorem powerOfTwo_pos (n : Nat) : 0 < powerOfTwo n :=
  Nat.pow_pos (by decide)

theorem cast_powerOfTwo (n : Nat) : ((powerOfTwo n : Nat) : ℚ) = 2 ^ n :=
  Nat.cast_pow 2 n

section Scaling

variable {a b : Nat}

theorem cast_powerOfTwo_toNat (e : Int) :
    ((powerOfTwo e.toNat : Nat) : ℚ) = 2 ^ e * (powerOfTwo (-e).toNat : Nat) := by
  rw [cast_powerOfTwo, cast_powerOfTwo]
  rcases e.eq_nat_or_neg with ⟨n, rfl | rfl⟩
  · simp
  · simp

theorem scaled_le_iff (e : Int) :
    a * powerOfTwo e.toNat ≤ b * powerOfTwo (-e).toNat ↔ (a : ℚ) * 2 ^ e ≤ b := by
  have hpositive : (0 : ℚ) < (powerOfTwo (-e).toNat : Nat) := Nat.cast_pos.2 (powerOfTwo_pos _)
  rw [← Nat.cast_le (α := ℚ), Nat.cast_mul, Nat.cast_mul, cast_powerOfTwo_toNat, ← mul_assoc,
    mul_le_mul_iff_of_pos_right hpositive]

theorem scaled_lt_iff (e : Int) :
    b * powerOfTwo (-e).toNat < a * powerOfTwo e.toNat ↔ (b : ℚ) < a * 2 ^ e := by
  rw [← not_le, scaled_le_iff, not_le]

end Scaling

section Quotients

variable {n d : Nat}

/-- The power of two with the exponent `floorLog2 n d` is the largest one up to `n / d`. -/
theorem floorLog2_spec (hn : 0 < n) (hd : 0 < d) :
    (d : ℚ) * 2 ^ floorLog2 n d ≤ n ∧ (n : ℚ) < d * 2 ^ (floorLog2 n d + 1) := by
  have hpow (k : Nat) : ((2 ^ k : Nat) : ℚ) = 2 ^ (k : Int) := by simp
  have hnlow : (2 : ℚ) ^ (n.log2 : Int) ≤ n := by
    rw [← hpow]
    exact_mod_cast Nat.log2_self_le hn.ne'
  have hnhigh : (n : ℚ) < 2 ^ ((n.log2 : Int) + 1) := by
    have h : n < 2 ^ (n.log2 + 1) := Nat.lt_log2_self
    exact_mod_cast h
  have hdlow : (2 : ℚ) ^ (d.log2 : Int) ≤ d := by
    rw [← hpow]
    exact_mod_cast Nat.log2_self_le hd.ne'
  have hdhigh : (d : ℚ) < 2 ^ ((d.log2 : Int) + 1) := by
    have h : d < 2 ^ (d.log2 + 1) := Nat.lt_log2_self
    exact_mod_cast h
  unfold floorLog2
  extract_lets estimate
  have hlow : (d : ℚ) * 2 ^ (estimate - 1) ≤ n := by
    calc (d : ℚ) * 2 ^ (estimate - 1)
        ≤ 2 ^ ((d.log2 : Int) + 1) * 2 ^ (estimate - 1) := by gcongr
      _ = 2 ^ (n.log2 : Int) := by rw [← zpow_add₀ two_ne_zero]; congr 1; omega
      _ ≤ n := hnlow
  have hhigh : (n : ℚ) < d * 2 ^ (estimate + 1) := by
    calc (n : ℚ) < 2 ^ ((n.log2 : Int) + 1) := hnhigh
      _ = 2 ^ (d.log2 : Int) * 2 ^ (estimate + 1) := by
        rw [← zpow_add₀ two_ne_zero]; congr 1; omega
      _ ≤ d * 2 ^ (estimate + 1) := by gcongr
  split
  · next h => exact ⟨(scaled_le_iff estimate).1 h, hhigh⟩
  · next h =>
      rw [sub_add_cancel]
      exact ⟨hlow, lt_of_not_ge fun hle => h ((scaled_le_iff estimate).2 hle)⟩

theorem nearestQuotient_le {c : Nat} (hd : 0 < d) (h : n < c * d) : nearestQuotient n d ≤ c := by
  have hlt : n / d < c := (Nat.div_lt_iff_lt_mul hd).2 h
  unfold nearestQuotient
  extract_lets quotient twice
  split <;> omega

theorem le_nearestQuotient {c : Nat} (hd : 0 < d) (h : c * d ≤ n) : c ≤ nearestQuotient n d := by
  have hle : c ≤ n / d := (Nat.le_div_iff_mul_le hd).2 h
  unfold nearestQuotient
  extract_lets quotient twice
  split <;> omega

/-- With an exponent of at least 52 less than that of the quotient, the significand has at most 53
bits or is the next power of two. -/
theorem nearestQuotient_scaled_le {e : Int} (hn : 0 < n) (hd : 0 < d)
    (he : floorLog2 n d - 52 ≤ e) :
    nearestQuotient (n * powerOfTwo (-e).toNat) (d * powerOfTwo e.toNat) ≤ significandBound := by
  apply nearestQuotient_le (Nat.mul_pos hd (powerOfTwo_pos _))
  rw [← mul_assoc, scaled_lt_iff]
  calc (n : ℚ) < d * 2 ^ (floorLog2 n d + 1) := (floorLog2_spec hn hd).2
    _ ≤ d * 2 ^ (53 + e) := by
      have hle : floorLog2 n d + 1 ≤ 53 + e := by omega
      gcongr
      norm_num
    _ = (significandBound * d : Nat) * 2 ^ e := by
      rw [zpow_add₀ two_ne_zero, significandBound]
      norm_num
      ring

/-- With an exponent of exactly 52 less than that of the quotient, it has no fewer than 53 bits. -/
theorem le_nearestQuotient_scaled {e : Int} (hn : 0 < n) (hd : 0 < d)
    (he : e = floorLog2 n d - 52) :
    significandBound / 2 ≤
      nearestQuotient (n * powerOfTwo (-e).toNat) (d * powerOfTwo e.toNat) := by
  apply le_nearestQuotient (Nat.mul_pos hd (powerOfTwo_pos _))
  rw [← mul_assoc, scaled_le_iff]
  calc ((significandBound / 2 * d : Nat) : ℚ) * 2 ^ e = d * 2 ^ (52 + e) := by
        rw [zpow_add₀ two_ne_zero, significandBound]
        norm_num
        ring
    _ = d * 2 ^ floorLog2 n d := by
        rw [he]
        congr 2
        omega
    _ ≤ n := (floorLog2_spec hn hd).1

theorem isDouble_of_ofQuotient? {negative : Bool} {x : Binary64} (hn : 0 < n) (hd : 0 < d)
    (h : ofQuotient? negative n d = some x) : x.IsDouble := by
  unfold ofQuotient? at h
  extract_lets exponent significand rounded at h
  have hmin : minExponent ≤ exponent := le_max_right _ _
  have hle : significand ≤ significandBound := nearestQuotient_scaled_le hn hd (le_max_left _ _)
  have hfull : exponent = minExponent ∨ significandBound / 2 ≤ significand := by
    rcases max_choice (floorLog2 n d - 52) minExponent with heq | heq
    · exact .inr (le_nearestQuotient_scaled hn hd heq)
    · exact .inl heq
  have hrounded : rounded.significand < significandBound ∧ minExponent ≤ rounded.exponent ∧
      (rounded.exponent = minExponent ∨ significandBound / 2 ≤ rounded.significand) := by
    by_cases hlt : significand < significandBound
    · rw [show rounded = ⟨negative, significand, exponent⟩ from if_pos hlt]
      exact ⟨hlt, hmin, hfull⟩
    · -- the significand was rounded up to the next power of two
      rw [show rounded = ⟨negative, significand / 2, exponent + 1⟩ from if_neg hlt,
        le_antisymm hle (not_lt.1 hlt)]
      exact ⟨show significandBound / 2 < significandBound by decide,
        hmin.trans (Int.le_add_one le_rfl), .inr le_rfl⟩
  split at h
  · next hmax =>
      rw [← Option.some.inj h]
      exact ⟨hrounded.1, hrounded.2.1, hmax, hrounded.2.2⟩
  · cases h

end Quotients

section Operations

variable {x y z : Binary64}

theorem significand_pos (h : ¬ x.isZero = true) : 0 < x.significand := by
  rw [isZero, beq_iff_eq] at h
  exact Nat.pos_of_ne_zero h

theorem isDouble_of_ofNat? {n : Nat} (h : ofNat? n = some x) : x.IsDouble := by
  unfold ofNat? at h
  split at h
  · cases h
    exact isDouble_zero false
  · next hn => exact isDouble_of_ofQuotient? (Nat.pos_of_ne_zero hn) Nat.one_pos h

theorem isDouble_of_mul? (h : x.mul? y = some z) : z.IsDouble := by
  unfold mul? at h
  extract_lets negative exponent at h
  split at h
  · cases h
    exact isDouble_zero negative
  · next hzero =>
      rw [Bool.or_eq_true, not_or] at hzero
      have hproduct := Nat.mul_pos (significand_pos hzero.1) (significand_pos hzero.2)
      exact isDouble_of_ofQuotient? (Nat.mul_pos hproduct (powerOfTwo_pos _)) (powerOfTwo_pos _) h

theorem isDouble_of_div? (h : x.div? y = some z) : z.IsDouble := by
  unfold div? at h
  extract_lets negative exponent at h
  split at h
  · cases h
  · next hy =>
      split at h
      · cases h
        exact isDouble_zero negative
      · next hx =>
          exact isDouble_of_ofQuotient? (Nat.mul_pos (significand_pos hx) (powerOfTwo_pos _))
            (Nat.mul_pos (significand_pos hy) (powerOfTwo_pos _)) h

theorem isDouble_of_raise? {exponent : Nat} (hx : x.IsDouble) (h : x.raise? exponent = some y) :
    y.IsDouble := by
  unfold raise? at h
  split at h
  · cases h
    exact hx
  · split at h
    · cases h
    · rcases Option.bind_eq_some_iff.1 h with ⟨p, -, hmul⟩
      exact isDouble_of_mul? hmul

theorem isDouble_of_lower? {exponent : Nat} (h : x.lower? exponent = some y) : y.IsDouble := by
  unfold lower? at h
  split at h
  · rcases Option.bind_eq_some_iff.1 h with ⟨p, -, hdiv⟩
    exact isDouble_of_div? hdiv
  · rcases Option.bind_eq_some_iff.1 h with ⟨q, -, h⟩
    rcases Option.bind_eq_some_iff.1 h with ⟨p, -, hdiv⟩
    exact isDouble_of_div? hdiv

theorem IsDouble.withSign (h : x.IsDouble) (negative : Bool) :
    IsDouble { x with negative := negative } :=
  ⟨h.significand_lt, h.le_exponent, h.exponent_le, h.full⟩

theorem isDouble_of_ofDigits? {negative : Bool} {whole places : List Char} {exponent : Int}
    (h : ofDigits? negative whole places exponent = some x) : x.IsDouble := by
  unfold ofDigits? at h
  rcases Option.bind_eq_some_iff.1 h with ⟨n, hn, h⟩
  extract_lets exponent finish at h
  split at h
  · rcases Option.bind_eq_some_iff.1 h with ⟨y, hy, hsign⟩
    cases hsign
    exact (isDouble_of_raise? (isDouble_of_ofNat? hn) hy).withSign negative
  · rcases Option.bind_eq_some_iff.1 h with ⟨y, hy, hsign⟩
    cases hsign
    exact (isDouble_of_lower? hy).withSign negative

end Operations

end Binary64

end Number

end RecordQuery
