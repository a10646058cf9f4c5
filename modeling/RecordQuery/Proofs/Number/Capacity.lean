import Mathlib.Data.List.TakeWhile
import RecordQuery.Value.OfJson
import RecordQuery.Proofs.Number.Numerals
import RecordQuery.Proofs.Number.Shortest

/-!
# What a decimal can hold

A number of a document becomes a decimal in one of two ways. Its text is read, which may be in
scientific notation; and where that fails, its binary digits are converted. For a double the two
together fail exactly from the 96th power of two on (`JsonNumber.decimal?_eq_none_iff`). Below it,
the conversion alone always succeeds (`Decimal.ofBinary64?_eq_none_iff`). Above it the conversion
fails, and so does reading: the text has an exponent, which plain notation does not allow, and with
the point moved the number is too large (`Decimal.read_writeFloat_eq_none`).
-/

namespace RecordQuery

namespace Number

namespace Decimal

section Notation

/-! Plain notation ends at the mark of an exponent, and what scientific notation makes of a decimal
that is written with an exponent. -/

variable {cs : List Char} {c : Char}

theorem finish_eq_none {magnitude scale : Nat} (hmem : c ∈ cs)
    (hc : isDigitOrSeparator c = false) : finish magnitude scale cs = none := by
  cases cs with
  | nil => cases hmem
  | cons d cs =>
      have hall : ¬ (d :: cs).all isDigitOrSeparator = true := fun hall =>
        absurd (List.all_eq_true.1 hall c hmem) (Bool.eq_false_iff.1 hc)
      rw [finish, ← List.all_cons, if_neg hall]

theorem mem_decisive {before : Nat} (hmem : c ∈ cs) (hc : isDigitOrSeparator c = false) :
    c ∈ decisive before cs := by
  unfold decisive
  split
  · rw [← List.takeWhile_append_dropWhile (p := (· == '_')) (l := cs), List.mem_append] at hmem
    rcases hmem with hmem | hmem
    · have hseparator := List.mem_takeWhile_imp hmem
      simp [isDigitOrSeparator, hseparator] at hc
    · exact hmem
  · exact hmem

/-- Digits, separators and the point are all that is read of a number. -/
theorem readDigits_eq_none {magnitude : Nat} {places : Option Nat} {started : Bool}
    (hmem : c ∈ cs) (hc : isDigitOrSeparator c = false) (hpoint : c ≠ '.') :
    readDigits magnitude places started cs = none := by
  have hdigit {d : Char} {cs : List Char} (hmem : c ∈ d :: cs) (hd : d.isDigit = true) :
      c ∈ cs := by
    rcases List.mem_cons.1 hmem with rfl | hmem
    · simp [isDigitOrSeparator, hd] at hc
    · exact hmem
  fun_induction readDigits magnitude places started cs with
  | case1 | case2 => cases hmem
  | case3 _ _ d cs hd _ _ ih => exact ih (hdigit hmem hd)
  | case4 | case10 => rfl
  | case5 _ _ d cs hd _ _ _ _ ih => exact ih (hdigit hmem hd)
  | case6 _ _ d cs hd => exact finish_eq_none (mem_decisive (hdigit hmem hd) hc) hc
  | case7 => exact finish_eq_none hmem hc
  | case8 _ _ _ d cs _ hd ih =>
      rw [Bool.and_eq_true, beq_iff_eq] at hd
      exact ih ((List.mem_cons.1 hmem).resolve_left fun heq => hpoint (heq.trans hd.1))
  | case9 _ _ _ d cs _ _ hd ih =>
      rw [Bool.and_eq_true] at hd
      apply ih ((List.mem_cons.1 hmem).resolve_left _)
      rintro rfl
      simp [isDigitOrSeparator, hd.1] at hc

theorem readPlain_eq_none (hmem : 'e' ∈ cs) : readPlain cs = none := by
  have hnone (negative : Bool) {cs : List Char} (hmem : 'e' ∈ cs) :
      readMagnitude negative cs = none := by
    rw [readMagnitude, readUnsigned, readDigits_eq_none hmem (by decide) (by decide)]
    rfl
  unfold readPlain
  split
  · exact hnone true ((List.mem_cons.1 hmem).resolve_left (by decide))
  · exact hnone false ((List.mem_cons.1 hmem).resolve_left (by decide))
  · exact hnone false hmem

theorem readExponent_write (n : Nat) :
    readExponent ('+' :: writeNatural n) = if n ≤ maxScale then some n else none := by
  rw [readExponent, readNatural_writeNatural]
  simp [Option.filter]

/-- A decimal with an exponent behind it is the decimal with the point moved. -/
theorem readScientific_write (d : Decimal) (n : Nat) :
    readScientific (d.write ++ 'e' :: '+' :: writeNatural n) =
      if n ≤ maxScale then
        movePointRight { d with negative := d.negative && d.magnitude != 0 } n
      else none := by
  have hmarks : ∀ c ∈ d.write, (!isExponentMark c) = true := by
    intro c hc
    rw [isExponentMark_of_mem_numeral (Lexeme.isNumeral_write d) hc]
    rfl
  have hmark : (!isExponentMark 'e') = false := rfl
  rw [readScientific, List.takeWhile_append_of_pos hmarks, List.dropWhile_append_of_pos hmarks,
    List.takeWhile_cons_of_neg (by simp [hmark]), List.dropWhile_cons_of_neg (by simp [hmark]),
    List.append_nil, readPlain_write]
  change (readExponent ('+' :: writeNatural n)).bind _ = _
  rw [readExponent_write]
  split <;> rfl

/-- A decimal with an exponent is not read if it is too large with the point moved. -/
theorem read_exponential_eq_none {d : Decimal} {n : Nat}
    (hlarge : bound ≤ d.magnitude * powerOfTen (n - d.scale)) :
    read (d.write ++ 'e' :: '+' :: writeNatural n) = none := by
  have hmem : 'e' ∈ d.write ++ 'e' :: '+' :: writeNatural n :=
    List.mem_append_right _ (List.mem_cons_self ..)
  have hmove (negative : Bool) : movePointRight { d with negative := negative } n = none := by
    rw [movePointRight, ofParts?, dif_neg]
    exact fun h => absurd h.1 (Nat.not_lt.2 hlarge)
  rw [read, readPlain_eq_none hmem, Option.none_or, readScientific_write, hmove]
  exact ite_self none

end Notation

section Conversion

/-! The conversion of the binary digits keeps the coefficient below the bound of a magnitude. -/

variable {m : Nat} {e : Int}

theorem roundedTenth_lt (h : m < bound) : roundedTenth m < bound := by
  rw [bound] at h ⊢
  unfold roundedTenth
  split <;> omega

theorem dropDigits_lt (count : Nat) (h : m < bound) : dropDigits count m < bound := by
  induction count generalizing m with
  | zero => exact h
  | succ count ih =>
      rw [dropDigits]
      split
      · decide
      · exact ih (roundedTenth_lt h)

theorem dropExcess_spec (scale : Nat) (h : m < bound) :
    (dropExcess scale m).1 < bound ∧ (dropExcess scale m).2 ≤ scale := by
  induction scale generalizing m with
  | zero => exact ⟨h, le_rfl⟩
  | succ scale ih =>
      rw [dropExcess]
      split
      · exact ⟨(ih (roundedTenth_lt h)).1, (ih (roundedTenth_lt h)).2.trans (Nat.le_succ scale)⟩
      · exact ⟨h, le_rfl⟩

theorem dropZeros_spec (scale : Nat) (h : m < bound) :
    (dropZeros scale m).1 < bound ∧ (dropZeros scale m).2 ≤ scale := by
  induction scale generalizing m with
  | zero => exact ⟨h, le_rfl⟩
  | succ scale ih =>
      rw [dropZeros]
      split
      · have hlt : m / 10 < bound := (Nat.div_le_self m 10).trans_lt h
        exact ⟨(ih hlt).1, (ih hlt).2.trans (Nat.le_succ scale)⟩
      · exact ⟨h, le_rfl⟩

theorem settle_ne_none (negative : Bool) (h : m < bound) (he : e ≤ 0) :
    settle negative m e ≠ none := by
  have htens : e.toNat = 0 := by omega
  have hdigits := dropDigits_lt ((-e).toNat - maxScale) h
  have hexcess := dropExcess_spec (min (-e).toNat maxScale) hdigits
  have hzeros := dropZeros_spec (dropExcess (min (-e).toNat maxScale)
    (dropDigits ((-e).toNat - maxScale) m)).2 hexcess.1
  have hscale := (hzeros.2.trans hexcess.2).trans (Nat.min_le_right _ _)
  rw [settle, htens]
  change ofParts? negative _ _ ≠ none
  rw [ofParts?_of_fits negative hzeros.1 hscale]
  exact Option.some_ne_none _

/-- Every five goes into the coefficient or turns a two of it into a ten. -/
theorem raiseByFives_spec (fives : Nat) (h : m < bound) :
    (raiseByFives fives m e).1 < bound ∧ (raiseByFives fives m e).2 ≤ e + fives := by
  induction fives generalizing m e with
  | zero => exact ⟨h, by simp [raiseByFives]⟩
  | succ fives ih =>
      have hhalf : m / 2 < bound := (Nat.div_le_self m 2).trans_lt h
      have hten := ih (e := e + 1) hhalf
      rw [raiseByFives]
      split
      · exact ⟨hten.1, by omega⟩
      · split
        · next hfive => exact ⟨(ih hfive).1, by have := (ih (e := e) hfive).2; omega⟩
        · exact ⟨hten.1, by omega⟩

theorem lowerByFives_of_lt (fives : Nat) (h : m * 2 ^ fives < bound) :
    lowerByFives fives m e = some (m * 2 ^ fives, e - fives) := by
  induction fives generalizing m e with
  | zero => simp [lowerByFives]
  | succ fives ih =>
      rw [pow_succ', ← mul_assoc, mul_comm m 2] at h ⊢
      have hroom : 2 * m < bound := (Nat.le_mul_of_pos_right _ (by positivity)).trans_lt h
      rw [lowerByFives, if_pos hroom, ih h]
      congr 2
      omega

/-- As many tens as fives are too few where there is no room for a two. -/
theorem lowerByFives_of_le (fives : Nat) (hm : m < bound) (h : bound ≤ m * 2 ^ fives) :
    lowerByFives fives m fives = none := by
  induction fives generalizing m with
  | zero => exact absurd hm (Nat.not_lt.2 (by simpa using h))
  | succ fives ih =>
      rw [pow_succ', ← mul_assoc, mul_comm m 2] at h
      rw [lowerByFives]
      split
      · next hroom =>
          rw [Nat.cast_succ, Int.add_sub_cancel]
          exact ih hroom h
      · rw [if_pos]
        push_cast
        omega

end Conversion

end Decimal

namespace Binary64

variable {x : Binary64}

theorem magnitude_eq_cast (h : 0 ≤ x.exponent) :
    x.magnitude = ((x.significand * 2 ^ x.exponent.toNat : Nat) : ℚ) := by
  rw [magnitude, Nat.cast_mul, Nat.cast_pow, Nat.cast_ofNat, ← zpow_natCast, Int.toNat_of_nonneg h]

theorem IsDouble.significand_lt_bound (h : x.IsDouble) : x.significand < Decimal.bound :=
  h.significand_lt.trans (by decide)

/-- A double whose exponent is no larger than zero is smaller than every power of two with more than
53 bits. -/
theorem IsDouble.magnitude_lt (hx : x.IsDouble) (h : x.exponent ≤ 0) :
    x.magnitude < (Decimal.bound : ℚ) := by
  calc x.magnitude ≤ x.significand * 2 ^ (0 : Int) := by
        unfold magnitude
        gcongr
        norm_num
    _ = x.significand := by rw [zpow_zero, mul_one]
    _ < (Decimal.bound : ℚ) := Nat.cast_lt.2 hx.significand_lt_bound

section Large

/-- A double from the 96th power of two on has all 53 bits of its significand. -/
theorem IsDouble.le_of_bound_le (hx : x.IsDouble) (h : (Decimal.bound : ℚ) ≤ x.magnitude) :
    44 ≤ x.exponent ∧ 4503599627370496 ≤ x.significand := by
  have hexponent : 0 < x.exponent := not_le.1 fun hle => absurd (hx.magnitude_lt hle) (not_lt.2 h)
  rw [magnitude_eq_cast hexponent.le, Nat.cast_le] at h
  constructor
  · by_contra hlt
    have hpow : 2 ^ x.exponent.toNat ≤ 2 ^ 43 := Nat.pow_le_pow_right (by decide) (by omega)
    have hproduct := Nat.mul_lt_mul_of_lt_of_le hx.significand_lt hpow (by decide)
    exact absurd (h.trans_lt hproduct) (by decide)
  · rcases hx.full with heq | hfull
    · exact absurd heq (by rw [minExponent]; omega)
    · exact hfull

theorem shortest_bound (negative : Bool) :
    shortest ⟨negative, 4503599627370496, 44⟩ = ⟨7922816251426434, 13⟩ := by
  cases negative <;> decide +kernel

/-- The shortest digits of a double do not make a number below the 96th power of two if the double
is none. -/
theorem shortest_large (hx : x.IsDouble) (h : (Decimal.bound : ℚ) ≤ x.magnitude) :
    x.shortest.coefficient ≤ 10 ^ 17 ∧ 0 ≤ x.shortest.exponent ∧
      Decimal.bound ≤ x.shortest.coefficient * 10 ^ x.shortest.exponent.toNat := by
  rcases hx.le_of_bound_le h with ⟨hexponent, hsignificand⟩
  rw [magnitude_eq_cast (by omega), Nat.cast_le] at h
  have hlarge : 10 ^ 16 ≤ Decimal.bound := by decide
  rcases shortest_spec hx (by omega) (hlarge.trans h) with ⟨hcoefficient, hpositive, hlow⟩
  refine ⟨hcoefficient, hpositive, ?_⟩
  have hstep : 4 * x.significand - 2 ≤ x.interval.low := by
    unfold interval
    dsimp only
    split <;> omega
  by_cases hfirst : x.significand = 4503599627370496 ∧ x.exponent = 44
  · have heq : x = ⟨x.negative, 4503599627370496, 44⟩ := by
      rw [← hfirst.1, ← hfirst.2]
    rw [heq, shortest_bound]
    decide
  · refine le_trans ?_ hlow
    have hpow : 2 ^ 42 ≤ 2 ^ (x.exponent.toNat - 2) := Nat.pow_le_pow_right (by decide) (by omega)
    by_cases hnext : x.exponent = 44
    · have hstep' : 2 ^ 54 ≤ x.interval.low := by omega
      exact le_trans (by decide) (Nat.mul_le_mul hstep' hpow)
    · have hpow' : 2 ^ 43 ≤ 2 ^ (x.exponent.toNat - 2) :=
        Nat.pow_le_pow_right (by decide) (by omega)
      have hstep' : 2 ^ 53 ≤ x.interval.low := by omega
      exact le_trans (by decide) (Nat.mul_le_mul hstep' hpow')

/-- A double is written in scientific notation if its digits end far enough behind the first one: a
decimal with one digit ahead of the point, and an exponent. -/
theorem writeFloat_eq {d : Decimal} {exponent : Nat} (hzero : ¬ x.isZero = true)
    (hshortest : x.shortest = ⟨d.magnitude, exponent⟩) (hsign : d.negative = x.negative)
    (hdigits : (writeNatural d.magnitude).length = d.scale + 1) (hlarge : 16 ≤ d.scale + exponent) :
    Json.writeFloat x = d.write ++ 'e' :: '+' :: writeNatural (d.scale + exponent) := by
  have hdecimal : d.digits = writeNatural d.magnitude := writePadded_of_le_length hdigits.ge
  have hwhole : d.scale + 1 - d.scale = 1 := by omega
  have hscientific : ¬ ((d.scale + 1 : Nat) : Int) + exponent ≤ 16 := by omega
  have hplus : ¬ ((d.scale + 1 : Nat) : Int) + exponent - 1 < 0 := by omega
  have hmark : (((d.scale + 1 : Nat) : Int) + exponent - 1).natAbs = d.scale + exponent := by omega
  unfold Json.writeFloat Json.writeExponential Decimal.write
  rw [if_neg hzero, hshortest, hdecimal, hsign]
  simp only [hdigits, hwhole, hscientific, hplus, hmark, Json.positionalPoints]
  by_cases hscale : d.scale = 0 <;> cases x.negative <;> simp [hscale]

/-- A double from the 96th power of two on is written as a decimal and an exponent, which together
make too large a number. -/
theorem exists_writeFloat_eq (hx : x.IsDouble) (h : (Decimal.bound : ℚ) ≤ x.magnitude) :
    ∃ (d : Decimal) (n : Nat), Json.writeFloat x = d.write ++ 'e' :: '+' :: writeNatural n ∧
      Decimal.bound ≤ d.magnitude * powerOfTen (n - d.scale) := by
  rcases hshortest : x.shortest with ⟨c, k⟩
  have hspec := shortest_large hx h
  rw [hshortest] at hspec
  dsimp only at hspec
  rcases hspec with ⟨hcoefficient, hexponent, hvalue⟩
  obtain ⟨exponent, rfl⟩ := Int.eq_ofNat_of_zero_le hexponent
  have hlt : c < 10 ^ (writeNatural c).length := lt_pow_length_writeNatural c
  have hpositive : 0 < (writeNatural c).length := Nat.length_toDigits_pos
  have hlength : (writeNatural c).length ≤ 18 :=
    (Nat.length_toDigits_le_iff (by decide) (by decide)).2 (by omega)
  have hpoint : 28 < (writeNatural c).length + exponent := by
    apply (Nat.pow_lt_pow_iff_right (a := 10) (by decide)).1
    calc 10 ^ 28 ≤ Decimal.bound := by decide
      _ ≤ c * 10 ^ exponent := hvalue
      _ < 10 ^ (writeNatural c).length * 10 ^ exponent := by gcongr
      _ = 10 ^ ((writeNatural c).length + exponent) := (pow_add _ _ _).symm
  have hzero : ¬ x.isZero = true := by
    rw [isZero, beq_iff_eq]
    have := (hx.le_of_bound_le h).2
    omega
  refine ⟨⟨x.negative, c, (writeNatural c).length - 1, by omega, by omega⟩, _,
    writeFloat_eq hzero hshortest rfl ?_ ?_, ?_⟩
  · dsimp only
    omega
  · dsimp only
    omega
  · rw [Nat.add_sub_cancel_left]
    exact hvalue

end Large

end Binary64

namespace Decimal

/-- A double has a decimal near it if it is less than the 96th power of two. -/
theorem ofBinary64?_eq_none_iff {x : Binary64} (hx : x.IsDouble) :
    ofBinary64? x = none ↔ (bound : ℚ) ≤ x.magnitude := by
  unfold ofBinary64?
  split
  · next hexponent =>
      have hraise := raiseByFives_spec (e := x.exponent) (-x.exponent).toNat
        hx.significand_lt_bound
      constructor
      · exact fun h => absurd h (settle_ne_none x.negative hraise.1 (by omega))
      · exact fun h => absurd (hx.magnitude_lt hexponent) (not_lt.2 h)
  · next hexponent =>
      have htens : (x.exponent.toNat : Int) = x.exponent := by omega
      rw [Binary64.magnitude_eq_cast (by omega), Nat.cast_le]
      constructor
      · intro h
        by_contra hlt
        rw [lowerByFives_of_lt _ (not_le.1 hlt)] at h
        exact settle_ne_none x.negative (not_le.1 hlt) (by omega) h
      · intro h
        have hnone := lowerByFives_of_le x.exponent.toNat hx.significand_lt_bound h
        rw [htens] at hnone
        rw [hnone]
        rfl

/-- The text of a double that has no decimal near it is not read as one either. -/
theorem read_writeFloat_eq_none {x : Binary64} (hx : x.IsDouble)
    (h : (bound : ℚ) ≤ x.magnitude) : read (Json.writeFloat x) = none := by
  rcases Binary64.exists_writeFloat_eq hx h with ⟨d, n, htext, hlarge⟩
  rw [htext, read_exponential_eq_none hlarge]

end Decimal

end Number

namespace JsonNumber

open Number

/-- The number is one that a document can hold: an integer of a signed or an unsigned machine word,
or a double. -/
def IsMachineNumber : JsonNumber → Prop
  | .integer n => -9223372036854775808 ≤ n ∧ n ≤ 18446744073709551615
  | .float x => x.IsDouble

def Outgrows : JsonNumber → Prop
  | .integer n => Decimal.bound ≤ n.natAbs
  | .float x => (Decimal.bound : ℚ) ≤ x.magnitude

theorem IsMachineNumber.natAbs_lt {n : Int} (h : (JsonNumber.integer n).IsMachineNumber) :
    n.natAbs < Decimal.bound := by
  rw [IsMachineNumber] at h
  rw [Decimal.bound]
  omega

theorem decimal?_integer_ne_none {n : Int} (h : n.natAbs < Decimal.bound) :
    (JsonNumber.integer n).decimal? ≠ none := by
  rw [decimal?, ← Decimal.write_integer h, Decimal.read, Decimal.readPlain_write, Option.some_or]
  exact Option.some_ne_none _

/-- There is no decimal for a number exactly if it is too large for one. -/
theorem decimal?_eq_none_iff {n : JsonNumber} (h : n.IsMachineNumber) :
    n.decimal? = none ↔ n.Outgrows := by
  cases n with
  | integer n =>
      exact iff_of_false (decimal?_integer_ne_none h.natAbs_lt) (Nat.not_le.2 h.natAbs_lt)
  | float x =>
      rw [decimal?, Option.or_eq_none_iff, Decimal.ofBinary64?_eq_none_iff h]
      exact and_iff_right_of_imp (Decimal.read_writeFloat_eq_none h)

end JsonNumber

namespace Value

/-- A number of a document becomes null exactly if it is too large for a decimal. -/
theorem ofJsonNumber_eq_null_iff {n : JsonNumber} (h : n.IsMachineNumber) :
    ofJsonNumber n = .null ↔ n.Outgrows := by
  unfold ofJsonNumber
  split
  · next i hint =>
      cases n with
      | integer n => exact iff_of_false (fun h => by cases h) (Nat.not_le.2 h.natAbs_lt)
      | float x => cases hint
  · rw [← JsonNumber.decimal?_eq_none_iff h]
    split
    · next d hdecimal => exact iff_of_false (fun h => by cases h) (by simp [hdecimal])
    · next hdecimal => exact iff_of_true rfl hdecimal

end Value

end RecordQuery
