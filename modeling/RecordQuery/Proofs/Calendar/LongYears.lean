import RecordQuery.Proofs.Calendar.RoundTrip

/-!
# Years that four digits do not hold

A year before zero or behind 9999 is written with a sign. The notation with an offset wants four
digits there, and the lenient notations want nothing behind the time of day, where the offset
stands. So no notation is left for the text of a point in time in such a year
(`Timestamp.read_write_eq_none`).
-/

namespace RecordQuery

namespace Timestamp

variable {t : Timestamp}

def writeTime (t : Timestamp) : List Char :=
  Number.writePadded 2 (t.secondOfDay / 3600) ++
    ':' :: (Number.writePadded 2 (t.secondOfDay / 60 % 60) ++
      ':' :: (Number.writePadded 2 t.writtenSecond ++
        (writeFraction t.writtenNanos ++ ['+', '0', '0', ':', '0', '0'])))

def yearSign (t : Timestamp) : Char :=
  if t.year < 0 then '-' else '+'

theorem write_eq_of_long (hyear : ¬(0 ≤ t.year ∧ t.year ≤ 9999)) :
    t.write = t.yearSign :: (Number.writePadded 4 t.year.natAbs ++
      '-' :: (Number.writePadded 2 (Date.ofDays t.dayNumber).month ++
        '-' :: (Number.writePadded 2 (Date.ofDays t.dayNumber).day ++ 'T' :: t.writeTime))) := by
  have hwriteYear : Date.writeYear t.year =
      t.yearSign :: Number.writePadded 4 t.year.natAbs := by
    rw [Date.writeYear, if_neg]
    · rfl
    · simpa using hyear
  rw [year] at hwriteYear
  simp [write, Date.write, hwriteYear, year, writeTime, writtenSecond, writtenNanos]

theorem yearSign_eq (t : Timestamp) : t.yearSign = '-' ∨ t.yearSign = '+' := by
  rw [yearSign]
  split
  · exact .inl rfl
  · exact .inr rfl

theorem yearSign_visible (t : Timestamp) :
    Text.isWhiteSpace t.yearSign = false ∧ t.yearSign.isDigit = false := by
  rcases t.yearSign_eq with hsign | hsign
  · rw [hsign]
    decide
  · rw [hsign]
    decide

theorem takeFixed_of_not_digit {c : Char} (width : Nat) (hc : c.isDigit = false)
    (cs : List Char) : takeFixed (width + 1) (c :: cs) = none := by
  simp [takeFixed, Number.readNatural, hc]

theorem takeUpTo_digits {width : Nat} {digits : List Char} (hne : digits ≠ [])
    (hdigits : digits.all Char.isDigit = true) (hwidth : digits.length ≤ width) {c : Char}
    (hc : c.isDigit = false) (rest : List Char) :
    takeUpTo width (digits ++ c :: rest) = some (Number.digitsValue digits, c :: rest) := by
  have hall : ∀ d ∈ digits, d.isDigit = true := List.all_eq_true.1 hdigits
  have htake : ((digits ++ c :: rest).take width).takeWhile Char.isDigit = digits := by
    rw [List.take_append, List.take_of_length_le hwidth, List.takeWhile_append_of_pos hall]
    cases width - digits.length with
    | zero => simp
    | succ more => simp [hc]
  have hread : Number.readNatural digits = some (Number.digitsValue digits) := by
    simp [Number.readNatural, hne, hdigits]
  simp only [takeUpTo, htake, hread, Option.map_some, List.drop_left]

theorem takeSpaced_writePadded {n : Nat} (h : n < 100) {c : Char} (hc : c.isDigit = false)
    (rest : List Char) :
    takeSpaced 2 (Number.writePadded 2 n ++ c :: rest) = some (n, c :: rest) := by
  have hlength : (Number.writePadded 2 n).length = 2 := Number.length_writePadded (by decide) h
  have hdigits := Number.all_isDigit_writePadded 2 n
  have hne := Number.writePadded_ne_nil 2 n
  have htrim : Text.trimStart (Number.writePadded 2 n ++ c :: rest) =
      Number.writePadded 2 n ++ c :: rest := by
    rcases Number.exists_cons_of_digits hne hdigits with ⟨first, others, heq, hfirst, -⟩
    rw [heq, List.cons_append, Text.trimStart_cons, Text.isWhiteSpace_of_isDigit hfirst]
    rfl
  rw [takeSpaced, htrim, takeUpTo_digits hne hdigits (Nat.le_of_eq hlength) hc,
    Number.digitsValue_writePadded]

theorem takeYear_of_sign (t : Timestamp) (n : Nat) (rest : List Char) :
    ∃ year, takeYear (t.yearSign :: (Number.writePadded 4 n ++ '-' :: rest)) =
      some (year, '-' :: rest) := by
  have hwidth : (Number.writePadded 4 n).length ≤
      (Number.writePadded 4 n ++ '-' :: rest).length := by
    simp
  have htake := takeUpTo_digits (Number.writePadded_ne_nil 4 n)
    (Number.all_isDigit_writePadded 4 n) hwidth (show ('-').isDigit = false by decide) rest
  rw [Number.digitsValue_writePadded] at htake
  rcases t.yearSign_eq with hsign | hsign
  · refine ⟨-(n : Int), ?_⟩
    rw [takeYear, hsign, Text.trimStart_cons]
    exact Option.map_eq_some_iff.2 ⟨_, htake, rfl⟩
  · refine ⟨(n : Int), ?_⟩
    rw [takeYear, hsign, Text.trimStart_cons]
    exact Option.map_eq_some_iff.2 ⟨_, htake, rfl⟩

/-- What is left behind the date of a point in time, if the date is taken at all. -/
theorem rest_of_takeDate_write (hyear : ¬(0 ≤ t.year ∧ t.year ≤ 9999)) {date : Date}
    {rest : List Char} (h : takeDate t.write = some (date, rest)) : rest = 'T' :: t.writeTime := by
  rcases Date.month_day_le t.dayNumber with ⟨hmonth, hday⟩
  rw [write_eq_of_long hyear] at h
  rcases Option.bind_eq_some_iff.1 h with ⟨_, hstep, h⟩
  rcases t.takeYear_of_sign t.year.natAbs _ with ⟨year, htake⟩
  cases htake.symm.trans hstep
  rcases Option.bind_eq_some_iff.1 h with ⟨_, hstep, h⟩
  cases (expect_cons '-' _).symm.trans hstep
  rcases Option.bind_eq_some_iff.1 h with ⟨_, hstep, h⟩
  cases (takeSpaced_writePadded (by omega) (by decide) _).symm.trans hstep
  rcases Option.bind_eq_some_iff.1 h with ⟨_, hstep, h⟩
  cases (expect_cons '-' _).symm.trans hstep
  rcases Option.bind_eq_some_iff.1 h with ⟨_, hstep, h⟩
  cases (takeSpaced_writePadded (by omega) (by decide) _).symm.trans hstep
  rcases Option.bind_eq_some_iff.1 h with ⟨_, -, h⟩
  cases h
  rfl

/-- A fraction begins with a point, and the offset behind it with a sign. -/
theorem exists_writeFraction_append (nanos : Nat) :
    ∃ c rest, c.isDigit = false ∧ writeFraction nanos ++ ['+', '0', '0', ':', '0', '0'] =
      c :: rest := by
  unfold writeFraction
  split
  · exact ⟨'+', _, by decide, rfl⟩
  · split
    · exact ⟨'.', _, by decide, rfl⟩
    · split
      · exact ⟨'.', _, by decide, rfl⟩
      · exact ⟨'.', _, by decide, rfl⟩

theorem exists_writeTime_eq (t : Timestamp) : ∃ front, t.writeTime = front ++ ['0'] := by
  refine ⟨Number.writePadded 2 (t.secondOfDay / 3600) ++
    ':' :: (Number.writePadded 2 (t.secondOfDay / 60 % 60) ++
      ':' :: (Number.writePadded 2 t.writtenSecond ++
        (writeFraction t.writtenNanos ++ ['+', '0', '0', ':', '0']))), ?_⟩
  simp [writeTime]

theorem readTime_writeTime (h : t.IsValid) (date : Date) : readTime date t.writeTime = none := by
  have hsecondOfDay := t.seconds_eq.2
  have hsecond := t.writtenSecond_le
  refine Option.eq_none_iff_forall_ne_some.2 fun u hu => ?_
  rcases Option.bind_eq_some_iff.1 hu with ⟨_, hstep, hu⟩
  cases (takeSpaced_writePadded (by omega) (by decide) _).symm.trans hstep
  rcases Option.bind_eq_some_iff.1 hu with ⟨_, hstep, hu⟩
  cases (expect_cons ':' _).symm.trans hstep
  rcases Option.bind_eq_some_iff.1 hu with ⟨_, hstep, hu⟩
  cases (takeSpaced_writePadded (by omega) (by decide) _).symm.trans hstep
  rcases Option.bind_eq_some_iff.1 hu with ⟨_, hstep, hu⟩
  cases (expect_cons ':' _).symm.trans hstep
  rcases exists_writeFraction_append t.writtenNanos with ⟨c, rest, hc, htail⟩
  rcases Option.bind_eq_some_iff.1 hu with ⟨_, hstep, hu⟩
  rw [htail] at hstep
  cases (takeSpaced_writePadded (by omega) hc _).symm.trans hstep
  rcases Option.bind_eq_some_iff.1 hu with ⟨_, hstep, hu⟩
  rw [← htail] at hstep
  cases (takeFraction_writeFraction (writtenNanos_lt h) _).symm.trans hstep
  cases hu

/-- A point in time in a year that four digits do not hold is not read as it was written, nor as
anything else. -/
theorem read_write_eq_none (h : t.IsValid) (hyear : ¬(0 ≤ t.year ∧ t.year ≤ 9999)) :
    read t.write = none := by
  obtain ⟨middle, hends⟩ : ∃ middle, t.write = t.yearSign :: (middle ++ ['0']) := by
    rcases t.exists_writeTime_eq with ⟨front, hfront⟩
    refine ⟨Number.writePadded 4 t.year.natAbs ++
      '-' :: (Number.writePadded 2 (Date.ofDays t.dayNumber).month ++
        '-' :: (Number.writePadded 2 (Date.ofDays t.dayNumber).day ++ 'T' :: front)), ?_⟩
    simp [write_eq_of_long hyear, hfront]
  have htrim : Text.trim t.write = t.write := by
    rw [hends]
    exact Text.trim_eq_self t.yearSign_visible.1 (by decide)
  have hoffset : readWithOffset t.write = none := by
    rw [write_eq_of_long hyear, readWithOffset, takeFixed_of_not_digit _ t.yearSign_visible.2]
    rfl
  have hjoined : readJoined t.write = none := by
    refine Option.eq_none_iff_forall_ne_some.2 fun u hu => ?_
    rcases Option.bind_eq_some_iff.1 hu with ⟨⟨date, rest⟩, hdate, hu⟩
    obtain rfl := rest_of_takeDate_write hyear hdate
    rcases Option.bind_eq_some_iff.1 hu with ⟨_, hstep, hu⟩
    cases (expect_cons 'T' _).symm.trans hstep
    rw [readTime_writeTime h] at hu
    cases hu
  have hspaced : readSpaced t.write = none := by
    refine Option.eq_none_iff_forall_ne_some.2 fun u hu => ?_
    rcases Option.bind_eq_some_iff.1 hu with ⟨⟨date, rest⟩, hdate, hu⟩
    obtain rfl := rest_of_takeDate_write hyear hdate
    cases hu
  have hdate : readDate t.write = none := by
    refine Option.eq_none_iff_forall_ne_some.2 fun u hu => ?_
    rcases Option.bind_eq_some_iff.1 hu with ⟨⟨date, rest⟩, hdate, hu⟩
    obtain rfl := rest_of_takeDate_write hyear hdate
    cases hu
  simp only [read, htrim, hoffset, hjoined, hspaced, hdate, Option.none_or]

end Timestamp

end RecordQuery
