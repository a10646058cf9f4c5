import RecordQuery.Number.Decimal.Reader

/-!
# Reading what is written of numbers

The text of an integer is read as that integer. The text of a decimal is read as the same number
with the same scale, except that the sign of a zero is lost.
-/

namespace RecordQuery

namespace Number

theorem all_isDigit_writePadded (width n : Nat) :
    (writePadded width n).all Char.isDigit = true := by
  have hzeros : (List.replicate (width - (writeNatural n).length) '0').all Char.isDigit = true := by
    rw [List.all_eq_true]
    intro c hc
    rw [List.eq_of_mem_replicate hc]
    decide
  rw [writePadded, List.all_append, hzeros, all_isDigit_writeNatural]
  rfl

@[simp] theorem digitsValue_writePadded (width n : Nat) :
    digitsValue (writePadded width n) = n := by
  have h := digitsValue_writeNatural n
  rw [digitsValue] at h ⊢
  rw [writePadded, Nat.ofDigitChars_append, Nat.ofDigitChars_replicate_zero, Nat.mul_zero, h]

theorem le_length_writePadded (width n : Nat) : width ≤ (writePadded width n).length := by
  rw [writePadded, List.length_append, List.length_replicate]
  omega

theorem length_writePadded {width n : Nat} (hwidth : 0 < width) (h : n < powerOfTen width) :
    (writePadded width n).length = width := by
  have hdigits : (writeNatural n).length ≤ width :=
    (Nat.length_toDigits_le_iff (by decide) hwidth).2 h
  rw [writePadded, List.length_append, List.length_replicate]
  omega

theorem writePadded_of_le_length {width n : Nat} (h : width ≤ (writeNatural n).length) :
    writePadded width n = writeNatural n := by
  rw [writePadded, Nat.sub_eq_zero_of_le h]
  rfl

theorem writePadded_ne_nil (width n : Nat) : writePadded width n ≠ [] := by
  simp [writePadded, writeNatural_ne_nil]

theorem readNatural_writePadded (width n : Nat) : readNatural (writePadded width n) = some n := by
  rw [readNatural, all_isDigit_writePadded, digitsValue_writePadded]
  simp [writePadded_ne_nil]

theorem exists_cons_of_digits {cs : List Char} (hne : cs ≠ []) (h : cs.all Char.isDigit = true) :
    ∃ first others, cs = first :: others ∧ first.isDigit = true ∧
      others.all Char.isDigit = true := by
  rcases List.exists_cons_of_ne_nil hne with ⟨first, others, rfl⟩
  rw [List.all_cons, Bool.and_eq_true] at h
  exact ⟨first, others, rfl, h.1, h.2⟩

theorem digitValue_le {c : Char} (h : c.isDigit = true) : digitValue c ≤ 9 := by
  rcases Char.isDigit_iff_toNat.1 h with ⟨-, hle⟩
  have hzero : '0'.toNat = 48 := rfl
  have hnine : '9'.toNat = 57 := rfl
  rw [digitValue]
  omega

theorem le_ofDigitChars (cs : List Char) (m : Nat) : m ≤ Nat.ofDigitChars 10 cs m := by
  induction cs generalizing m with
  | nil => exact Nat.le_refl m
  | cons c cs ih =>
      rw [Nat.ofDigitChars_cons]
      have h := ih (10 * m + (c.toNat - '0'.toNat))
      omega

theorem ofDigitChars_lt {cs : List Char} (h : cs.all Char.isDigit = true) (m : Nat) :
    Nat.ofDigitChars 10 cs m < (m + 1) * powerOfTen cs.length := by
  induction cs generalizing m with
  | nil => simp [powerOfTen]
  | cons c cs ih =>
      rw [List.all_cons, Bool.and_eq_true] at h
      have hdigit : c.toNat - '0'.toNat ≤ 9 := digitValue_le h.1
      have hpower : powerOfTen (cs.length + 1) = 10 * powerOfTen cs.length := Nat.pow_succ'
      rw [Nat.ofDigitChars_cons, List.length_cons, hpower, ← Nat.mul_assoc]
      exact Nat.lt_of_lt_of_le (ih h.2 _) (Nat.mul_le_mul_right _ (by omega))

/-- A number is less than the power of ten with as many zeros as it has digits. -/
theorem lt_of_readNatural {cs : List Char} {n : Nat} (h : readNatural cs = some n) :
    n < powerOfTen cs.length := by
  rw [readNatural] at h
  split at h
  · next hdigits =>
      cases h
      have hlt := ofDigitChars_lt (Bool.and_eq_true_iff.1 hdigits).2 0
      rwa [Nat.zero_add, Nat.one_mul] at hlt
  · cases h

theorem readSigned_of_isDigit {c : Char} (cs : List Char) (h : c.isDigit = true) :
    readSigned (c :: cs) = (readNatural (c :: cs)).map fun n => (n : Int) := by
  unfold readSigned
  split
  · next heq =>
      rw [(List.cons.inj heq).1] at h
      exact absurd h (by decide)
  · next heq =>
      rw [(List.cons.inj heq).1] at h
      exact absurd h (by decide)
  · rfl

@[simp] theorem readSigned_writeInteger (n : Int) : readSigned (writeInteger n) = some n := by
  rw [writeInteger]
  by_cases hn : n < 0
  · rw [if_pos hn, readSigned, readNatural_writeNatural]
    change some (-(n.natAbs : Int)) = some n
    congr 1
    omega
  · obtain ⟨c, cs, hdigits, hc, -⟩ :=
      exists_cons_of_digits (writeNatural_ne_nil n.natAbs) (all_isDigit_writeNatural n.natAbs)
    rw [if_neg hn, hdigits, readSigned_of_isDigit cs hc, ← hdigits, readNatural_writeNatural]
    change some (n.natAbs : Int) = some n
    congr 1
    omega

theorem int64?_toInt (n : Int64) : int64? n.toInt = some n := by
  have hlt := n.toInt_lt
  have hle := n.le_toInt
  have hfits : fitsInt64 n.toInt = true := by
    simp only [fitsInt64, Bool.and_eq_true, decide_eq_true_eq]
    omega
  rw [int64?, if_pos hfits, Int64.ofInt_toInt]

@[simp] theorem readInteger_writeInteger (n : Int64) :
    readInteger (writeInteger n.toInt) = some n := by
  rw [readInteger, readSigned_writeInteger, Option.bind_some, int64?_toInt]

namespace Decimal

/-- The text of a decimal: a sign, digits, and behind a point as many digits as the scale says. -/
theorem exists_write_eq (d : Decimal) :
    ∃ first whole places, first.isDigit = true ∧ whole.all Char.isDigit = true ∧
      places.all Char.isDigit = true ∧ places.length = d.scale ∧
      Nat.ofDigitChars 10 places (Nat.ofDigitChars 10 (first :: whole) 0) = d.magnitude ∧
      d.write = (if d.negative then ['-'] else []) ++
        first :: (whole ++ if d.scale = 0 then [] else '.' :: places) := by
  have hlength : d.scale + 1 ≤ d.digits.length := le_length_writePadded _ _
  have hdigits : d.digits.all Char.isDigit = true := all_isDigit_writePadded _ _
  have hvalue : Nat.ofDigitChars 10 d.digits 0 = d.magnitude := digitsValue_writePadded _ _
  have hsplit : d.digits.take (d.digits.length - d.scale) ++
      d.digits.drop (d.digits.length - d.scale) = d.digits := List.take_append_drop _ _
  have hwrite : d.write = (if d.negative then ['-'] else []) ++
      (d.digits.take (d.digits.length - d.scale) ++
        if d.scale = 0 then [] else '.' :: d.digits.drop (d.digits.length - d.scale)) := by
    unfold write
    by_cases hscale : d.scale = 0 <;> cases d.negative <;> simp [hscale]
  have hwhole : d.digits.take (d.digits.length - d.scale) ≠ [] := by
    apply List.ne_nil_of_length_pos
    rw [List.length_take]
    omega
  rw [← hsplit, List.all_append, Bool.and_eq_true] at hdigits
  rcases exists_cons_of_digits hwhole hdigits.1 with ⟨first, whole, hcons, hfirst, hothers⟩
  rw [← hsplit, hcons, Nat.ofDigitChars_append] at hvalue
  rw [hcons] at hwrite
  refine ⟨first, whole, _, hfirst, hothers, hdigits.2, ?_, hvalue, hwrite⟩
  rw [List.length_drop]
  omega

variable {m : Nat}

theorem readDigits_whole {started : Bool} {whole : List Char} (rest : List Char)
    (hdigits : whole.all Char.isDigit = true) (hbound : Nat.ofDigitChars 10 whole m < bound) :
    readDigits m none started (whole ++ rest) =
      readDigits (Nat.ofDigitChars 10 whole m) none (started || !whole.isEmpty) rest := by
  induction whole generalizing m started with
  | nil => simp
  | cons c cs ih =>
      rw [List.all_cons, Bool.and_eq_true] at hdigits
      rw [Nat.ofDigitChars_cons] at hbound ⊢
      have hnext : 10 * m + digitValue c < bound :=
        Nat.lt_of_le_of_lt (le_ofDigitChars cs _) hbound
      rw [List.cons_append, readDigits]
      simp only [hdigits.1, if_true, hnext]
      rw [digitValue, ih hdigits.2 hbound]
      simp

theorem readDigits_places {scale : Nat} {places : List Char}
    (hdigits : places.all Char.isDigit = true) (hbound : Nat.ofDigitChars 10 places m < bound)
    (hscale : scale + places.length ≤ maxScale) :
    readDigits m (some scale) true places =
      some (Nat.ofDigitChars 10 places m, scale + places.length) := by
  induction places generalizing m scale with
  | nil => rfl
  | cons c cs ih =>
      rw [List.all_cons, Bool.and_eq_true] at hdigits
      rw [Nat.ofDigitChars_cons] at hbound ⊢
      rw [List.length_cons] at hscale ⊢
      have hnext : 10 * m + digitValue c < bound :=
        Nat.lt_of_le_of_lt (le_ofDigitChars cs _) hbound
      rw [readDigits]
      simp only [hdigits.1, if_true, hnext]
      by_cases hlast : scale + 1 < maxScale
      · rw [if_pos hlast, digitValue, ih hdigits.2 hbound (by omega)]
        congr 2
        omega
      · have hcs : cs = [] := by
          apply List.eq_nil_of_length_eq_zero
          omega
        subst hcs
        rw [if_neg hlast]
        simp [decisive, finish, digitValue]

theorem readUnsigned_eq {scale magnitude : Nat} {first : Char} {whole places : List Char}
    (hfirst : first.isDigit = true) (hwhole : whole.all Char.isDigit = true)
    (hplaces : places.all Char.isDigit = true) (hlength : places.length = scale)
    (hvalue : Nat.ofDigitChars 10 places (Nat.ofDigitChars 10 (first :: whole) 0) = magnitude)
    (hbound : magnitude < bound) (hscale : scale ≤ maxScale) :
    readUnsigned (first :: (whole ++ if scale = 0 then [] else '.' :: places)) =
      some (magnitude, scale) := by
  subst hlength hvalue
  have hdigits : (first :: whole).all Char.isDigit = true := by
    rw [List.all_cons, hfirst, hwhole]
    rfl
  have hle := le_ofDigitChars places (Nat.ofDigitChars 10 (first :: whole) 0)
  rw [readUnsigned, ← List.cons_append, readDigits_whole _ hdigits (Nat.lt_of_le_of_lt hle hbound)]
  by_cases hnone : places.length = 0
  · obtain rfl := List.eq_nil_of_length_eq_zero hnone
    rfl
  · rw [if_neg hnone, readDigits]
    have hpoint : ('.').isDigit = false := by decide
    simp only [hpoint, beq_self_eq_true, Option.isNone_none, Bool.and_self, if_true,
      Bool.false_eq_true, if_false]
    change readDigits _ (some 0) true places = _
    rw [readDigits_places hplaces hbound (by omega), Nat.zero_add]

theorem readPlain_of_isDigit {c : Char} (cs : List Char) (h : c.isDigit = true) :
    readPlain (c :: cs) = readMagnitude false (c :: cs) := by
  unfold readPlain
  split
  · next heq =>
      rw [(List.cons.inj heq).1] at h
      exact absurd h (by decide)
  · next heq =>
      rw [(List.cons.inj heq).1] at h
      exact absurd h (by decide)
  · rfl

theorem readPlain_write (d : Decimal) :
    readPlain d.write = some { d with negative := d.negative && d.magnitude != 0 } := by
  obtain ⟨first, whole, places, hfirst, hwhole, hplaces, hlength, hvalue, hwrite⟩ :=
    d.exists_write_eq
  have hread := readUnsigned_eq hfirst hwhole hplaces hlength hvalue d.magnitude_lt d.scale_le
  have hmagnitude : ∀ negative, readMagnitude negative (first :: (whole ++ if d.scale = 0 then []
      else '.' :: places)) = some { d with negative := negative && d.magnitude != 0 } := by
    intro negative
    rw [readMagnitude, hread, Option.bind_some]
    exact ofParts?_of_fits _ d.magnitude_lt d.scale_le
  rw [hwrite]
  cases d.negative with
  | true => rw [if_pos rfl, List.singleton_append, readPlain, hmagnitude]
  | false =>
      rw [if_neg (by decide), List.nil_append, readPlain_of_isDigit _ hfirst, hmagnitude]

theorem compare_dropSign (d : Decimal) :
    d.compare { d with negative := d.negative && d.magnitude != 0 } = .eq := by
  have hcoefficient : ({ d with negative := d.negative && d.magnitude != 0 } : Decimal).coefficient
      = d.coefficient := by
    by_cases hzero : d.magnitude = 0 <;> simp [coefficient, hzero]
  rw [compare, numeratorOver, numeratorOver, hcoefficient]
  exact Std.ReflCmp.compare_self

theorem exists_read_write (d : Decimal) : ∃ d', read d.write = some d' ∧ d.compare d' = .eq :=
  ⟨_, by rw [read, readPlain_write, Option.some_or], compare_dropSign d⟩

/-- The text of a decimal is that of an integer if it has no places after the point. -/
theorem readSigned_write (d : Decimal) :
    readSigned d.write = if d.scale = 0 then some d.coefficient else none := by
  rcases d.exists_write_eq with ⟨first, whole, places, hfirst, hwhole, -, hlength, hvalue, hwrite⟩
  have hread : readNatural (first :: (whole ++ if d.scale = 0 then [] else '.' :: places)) =
      if d.scale = 0 then some d.magnitude else none := by
    by_cases hscale : d.scale = 0
    · obtain rfl := List.eq_nil_of_length_eq_zero (hlength.trans hscale)
      simp [readNatural, hscale, hfirst, hwhole, digitsValue, ← hvalue]
    · simp [readNatural, hscale, show ('.').isDigit = false by decide]
  rw [hwrite, coefficient]
  cases d.negative with
  | true =>
      rw [if_pos rfl, List.singleton_append, readSigned, hread]
      by_cases hscale : d.scale = 0 <;> simp [hscale]
  | false =>
      rw [if_neg (by decide), List.nil_append, readSigned_of_isDigit _ hfirst, hread]
      by_cases hscale : d.scale = 0 <;> simp [hscale]

/-- A decimal is no integer of 64 bits if it has places after the point or is too large for one. -/
theorem readInteger_write_eq_none {d : Decimal}
    (h : d.scale = 0 → fitsInt64 d.coefficient = false) : readInteger d.write = none := by
  rw [readInteger, readSigned_write]
  by_cases hscale : d.scale = 0
  · rw [if_pos hscale, Option.bind_some, int64?, h hscale]
    rfl
  · rw [if_neg hscale, Option.bind_none]

theorem write_integer {n : Int} (h : n.natAbs < bound) :
    write ⟨n < 0, n.natAbs, 0, h, Nat.zero_le _⟩ = writeInteger n := by
  have hdigits : digits ⟨n < 0, n.natAbs, 0, h, Nat.zero_le _⟩ = writeNatural n.natAbs :=
    writePadded_of_le_length (List.length_pos_iff.2 (writeNatural_ne_nil _))
  rw [write, hdigits, writeInteger]
  by_cases hn : n < 0 <;> simp [hn]

theorem write_ofInt64 (n : Int64) : (ofInt64 n).write = writeInteger n.toInt :=
  write_integer _

end Decimal

end Number

end RecordQuery
