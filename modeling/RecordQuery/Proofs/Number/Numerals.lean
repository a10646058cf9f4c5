import RecordQuery.Proofs.Literal.RoundTrip

/-!
# Numerals that are no integers

A number in a query is a sign, digits, and maybe a point and more digits. Where it is read as a
decimal without places and yet not as an integer, the reason is its size: either the digits ahead of
the point make too large a number for a machine word, or they leave no room for those behind it
(`Decimal.fitsInt64_of_read_numeral`). So a decimal that a document column is compared with is never
written like an integer.
-/

namespace RecordQuery

namespace Lexeme

structure NumeralParts (cs : List Char) (negative : Bool) (first : Char)
    (whole tail : List Char) : Prop where
  eq : cs = (if negative then ['-'] else []) ++ first :: (whole ++ tail)
  first : first.isDigit = true
  whole : whole.all Char.isDigit = true
  tail : tail = [] ∨ ∃ places, tail = '.' :: places ∧ places ≠ [] ∧ places.all Char.isDigit = true

theorem numeralParts_of_unsigned {cs : List Char} (hsign : ∀ rest, cs ≠ '-' :: rest)
    (h : isNumeral cs = true) : ∃ first whole tail, NumeralParts cs false first whole tail := by
  unfold isNumeral at h
  dsimp only at h
  split at h
  · exact absurd rfl (hsign _)
  · rw [Bool.and_eq_true] at h
    rcases h with ⟨hwhole, htail⟩
    have hne : cs.takeWhile Char.isDigit ≠ [] := by simpa using hwhole
    rcases Number.exists_cons_of_digits hne (by simp) with ⟨first, whole, htake, hfirst, hdigits⟩
    refine ⟨first, whole, cs.dropWhile Char.isDigit, ?_, hfirst, hdigits, ?_⟩
    · rw [← List.cons_append, ← htake, List.takeWhile_append_dropWhile]
      rfl
    · split at htail
      · next heq => exact .inl heq
      · next places heq =>
          rw [Bool.and_eq_true] at htail
          exact .inr ⟨places, heq, by simpa using htail.1, htail.2⟩
      · cases htail

theorem exists_numeralParts {cs : List Char} (h : isNumeral cs = true) :
    ∃ negative first whole tail, NumeralParts cs negative first whole tail := by
  by_cases hsign : ∃ rest, cs = '-' :: rest
  · rcases hsign with ⟨rest, rfl⟩
    cases rest with
    | nil => cases h
    | cons c cs =>
        by_cases hc : c = '-'
        · subst hc
          cases h
        · rw [isNumeral_minus cs hc] at h
          have hsign : ∀ rest, c :: cs ≠ '-' :: rest := fun rest heq => hc (List.cons.inj heq).1
          rcases numeralParts_of_unsigned hsign h with ⟨first, whole, tail, parts⟩
          exact ⟨true, first, whole, tail, congrArg _ parts.eq, parts.first, parts.whole,
            parts.tail⟩
  · exact ⟨false, numeralParts_of_unsigned (fun rest heq => hsign ⟨rest, heq⟩) h⟩

end Lexeme

namespace Number

namespace Decimal

variable {m : Nat}

theorem lt_bound_of_readDigits {started : Bool} {whole rest : List Char} {result : Nat × Nat}
    (hdigits : whole.all Char.isDigit = true) (hbound : m < bound)
    (h : readDigits m none started (whole ++ rest) = some result) :
    Nat.ofDigitChars 10 whole m < bound := by
  induction whole generalizing m started with
  | nil => exact hbound
  | cons c cs ih =>
      rw [List.all_cons, Bool.and_eq_true] at hdigits
      rw [List.cons_append, readDigits] at h
      simp only [hdigits.1, if_true] at h
      split at h
      · next hnext =>
          rw [Nat.ofDigitChars_cons]
          exact ih hdigits.2 hnext h
      · cases h

theorem lt_of_roundUp {magnitude scale : Nat} {result : Nat × Nat}
    (h : roundUp magnitude scale = some result) (hm : 9223372036854775808 < magnitude) :
    9223372036854775808 < result.1 := by
  rw [roundUp] at h
  split at h
  · cases h
    omega
  · next hbound =>
      split at h
      · cases h
      · cases h
        simp only [bound] at hbound
        omega

theorem lt_of_finish {magnitude scale : Nat} {cs : List Char} {result : Nat × Nat}
    (h : finish magnitude scale cs = some result) (hm : 9223372036854775808 < magnitude) :
    9223372036854775808 < result.1 := by
  cases cs with
  | nil =>
      cases h
      exact hm
  | cons c cs =>
      rw [finish] at h
      split at h
      · split at h
        · exact lt_of_roundUp h hm
        · cases h
          exact hm
      · cases h

theorem le_of_finish {magnitude scale : Nat} {cs : List Char} {result : Nat × Nat}
    (h : finish magnitude scale cs = some result) : scale ≤ result.2 + 1 := by
  cases cs with
  | nil =>
      cases h
      exact Nat.le_succ scale
  | cons c cs =>
      rw [finish] at h
      split at h
      · split at h
        · rw [roundUp] at h
          split at h
          · cases h
            exact Nat.le_succ scale
          · split at h
            · cases h
            · cases h
              dsimp only
              omega
        · cases h
          exact Nat.le_succ scale
      · cases h

/-- A number with digits behind the point that keeps no place is a large one. -/
theorem lt_of_readDigits_places {scale : Nat} {places : List Char} {result : Nat × Nat}
    (hdigits : places.all Char.isDigit = true) (hplaces : 0 < scale ∨ places ≠ [])
    (h : readDigits m (some scale) true places = some result) (hresult : result.2 = 0) :
    9223372036854775808 < result.1 := by
  induction places generalizing m scale with
  | nil =>
      cases h
      rcases hplaces with hpositive | hne
      · exact absurd hresult (Nat.ne_of_gt hpositive)
      · exact absurd rfl hne
  | cons c cs ih =>
      rw [List.all_cons, Bool.and_eq_true] at hdigits
      rw [readDigits] at h
      simp only [hdigits.1, if_true] at h
      split at h
      · split at h
        · exact ih hdigits.2 (.inl (Nat.succ_pos scale)) h
        · next hlast =>
            have hle := le_of_finish h
            simp only [maxScale] at hlast
            omega
      · next hbound =>
          have hdigit := digitValue_le hdigits.1
          simp only [bound] at hbound
          exact lt_of_finish h (by omega)

/-- The value of digits, and behind a point more digits, if no places are kept. -/
theorem eq_or_lt_of_readUnsigned {first : Char} {whole tail : List Char} {magnitude : Nat}
    (hfirst : first.isDigit = true) (hwhole : whole.all Char.isDigit = true)
    (htail : tail = [] ∨ ∃ places, tail = '.' :: places ∧ places ≠ [] ∧
      places.all Char.isDigit = true)
    (h : readUnsigned (first :: (whole ++ tail)) = some (magnitude, 0)) :
    tail = [] ∧ magnitude = digitsValue (first :: whole) ∨ 9223372036854775808 < magnitude := by
  have hdigits : (first :: whole).all Char.isDigit = true := by
    rw [List.all_cons, hfirst, hwhole]
    rfl
  rw [readUnsigned, ← List.cons_append] at h
  have hbound := lt_bound_of_readDigits hdigits (by decide) h
  rw [readDigits_whole tail hdigits hbound] at h
  rcases htail with rfl | ⟨places, rfl, hne, hplaces⟩
  · cases h
    exact .inl ⟨rfl, rfl⟩
  · have hpoint : ('.').isDigit = false := by decide
    rw [readDigits] at h
    simp only [hpoint, beq_self_eq_true, Option.isNone_none, Bool.and_self, if_true,
      Bool.false_eq_true, if_false] at h
    exact .inr (lt_of_readDigits_places hplaces (.inr hne) h rfl)

theorem coefficient_of_readMagnitude {negative : Bool} {cs : List Char} {d : Decimal}
    (h : readMagnitude negative cs = some d) :
    ∃ magnitude, readUnsigned cs = some (magnitude, d.scale) ∧
      d.coefficient = if negative then -(magnitude : Int) else magnitude := by
  rcases Option.bind_eq_some_iff.1 h with ⟨⟨magnitude, scale⟩, hread, hparts⟩
  dsimp only [ofParts?] at hparts
  split at hparts
  · cases hparts
    refine ⟨magnitude, hread, ?_⟩
    by_cases hzero : magnitude = 0 <;> cases negative <;> simp [coefficient, hzero]
  · cases hparts

/-- A number without the mark of an exponent is not in scientific notation. -/
theorem readScientific_eq_none {cs : List Char} (h : ∀ c ∈ cs, isExponentMark c = false) :
    readScientific cs = none := by
  have hmarks : ∀ c ∈ cs, (!isExponentMark c) = true := by
    intro c hc
    rw [h c hc]
    rfl
  have hdrop : cs.dropWhile (fun c => !isExponentMark c) = [] := by
    rw [← List.append_nil cs, List.dropWhile_append_of_pos hmarks]
    rfl
  rw [readScientific, hdrop]
  cases readPlain (cs.takeWhile fun c => !isExponentMark c) with
  | none => rfl
  | some d => rfl

theorem readSigned_of_parts (negative : Bool) {first : Char} {others : List Char} {n : Nat}
    (hfirst : first.isDigit = true) (h : readNatural (first :: others) = some n) :
    readSigned ((if negative then ['-'] else []) ++ first :: others) =
      some (if negative then -(n : Int) else n) := by
  cases negative with
  | true =>
      rw [if_pos rfl, List.singleton_append, readSigned, h]
      rfl
  | false =>
      rw [if_neg (by decide), List.nil_append, readSigned_of_isDigit _ hfirst, h]
      rfl

theorem readPlain_of_parts (negative : Bool) {first : Char} (others : List Char)
    (hfirst : first.isDigit = true) :
    readPlain ((if negative then ['-'] else []) ++ first :: others) =
      readMagnitude negative (first :: others) := by
  cases negative with
  | true => rfl
  | false => exact readPlain_of_isDigit others hfirst

theorem isExponentMark_of_isDigit {c : Char} (h : c.isDigit = true) : isExponentMark c = false := by
  rw [isExponentMark, Lexeme.beq_false_of_isDigit h (by decide),
    Lexeme.beq_false_of_isDigit h (by decide)]
  rfl

theorem isExponentMark_of_mem_numeral {cs : List Char} (h : Lexeme.isNumeral cs = true) {c : Char}
    (hc : c ∈ cs) : isExponentMark c = false := by
  rcases Lexeme.exists_numeralParts h with ⟨negative, first, whole, tail, parts⟩
  rw [parts.eq, List.mem_append, List.mem_cons, List.mem_append] at hc
  rcases hc with hc | rfl | hc | hc
  · cases negative with
    | true =>
        obtain rfl := List.mem_singleton.1 hc
        decide
    | false => cases hc
  · exact isExponentMark_of_isDigit parts.first
  · exact isExponentMark_of_isDigit (List.all_eq_true.1 parts.whole c hc)
  · rcases parts.tail with rfl | ⟨places, rfl, -, hplaces⟩
    · cases hc
    · rcases List.mem_cons.1 hc with rfl | hc
      · decide
      · exact isExponentMark_of_isDigit (List.all_eq_true.1 hplaces c hc)

/-- A numeral that is no integer of 64 bits is no decimal that is one. -/
theorem fitsInt64_of_read_numeral {cs : List Char} {d : Decimal}
    (hnumeral : Lexeme.isNumeral cs = true) (hinteger : readInteger cs = none)
    (h : read cs = some d) (hscale : d.scale = 0) : fitsInt64 d.coefficient = false := by
  have hplain : readPlain cs = some d := by
    rw [read, readScientific_eq_none fun c => isExponentMark_of_mem_numeral hnumeral,
      Option.or_none] at h
    exact h
  rcases Lexeme.exists_numeralParts hnumeral with ⟨negative, first, whole, tail, parts⟩
  rw [parts.eq, readPlain_of_parts _ _ parts.first] at hplain
  rcases coefficient_of_readMagnitude hplain with ⟨magnitude, hread, hcoefficient⟩
  rw [hscale] at hread
  rcases eq_or_lt_of_readUnsigned parts.first parts.whole parts.tail hread with
    ⟨rfl, rfl⟩ | hlarge
  · have hnatural : readNatural (first :: whole) = some (digitsValue (first :: whole)) := by
      simp [readNatural, parts.first, parts.whole]
    rw [parts.eq, List.append_nil, readInteger, readSigned_of_parts _ parts.first hnatural,
      Option.bind_some, ← hcoefficient, int64?] at hinteger
    cases hfits : fitsInt64 d.coefficient with
    | false => rfl
    | true =>
        rw [if_pos hfits] at hinteger
        cases hinteger
  · rw [hcoefficient, fitsInt64, Bool.and_eq_false_iff, decide_eq_false_iff_not,
      decide_eq_false_iff_not]
    cases negative with
    | true => exact .inl (by simp only [if_true]; omega)
    | false => exact .inr (by simp only [Bool.false_eq_true, if_false]; omega)

end Decimal

end Number

end RecordQuery
