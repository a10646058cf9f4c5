import RecordQuery.Calendar.Timestamp.Reader
import RecordQuery.Proofs.Calendar.Days
import RecordQuery.Proofs.Number.RoundTrip

/-!
# Reading what is written of timestamps

A point in time in a year of four digits is written with all its nanoseconds and with universal time
for its offset, so reading it gives it back (`Timestamp.read_write`). A leap second is written as
second 60, from which its nanoseconds are read as those of a second that is prolonged.
-/

namespace RecordQuery

namespace Text

theorem isWhiteSpace_of_isDigit {c : Char} (h : c.isDigit = true) : isWhiteSpace c = false := by
  rcases Char.isDigit_iff_toNat.1 h with ⟨hle, hge⟩
  have hzero : '0'.toNat = 48 := rfl
  have hnine : '9'.toNat = 57 := rfl
  simp [isWhiteSpace, inRanges, whiteSpaceRanges]
  omega

/-- A text that begins and ends with visible characters has nothing to be cut off. -/
theorem trim_eq_self {first last : Char} {middle : List Char}
    (hfirst : isWhiteSpace first = false) (hlast : isWhiteSpace last = false) :
    trim (first :: (middle ++ [last])) = first :: (middle ++ [last]) := by
  have hfront : trimStart (first :: (middle ++ [last])) = first :: (middle ++ [last]) := by
    rw [trimStart_cons, hfirst]
    rfl
  rw [trim, hfront]
  simp [trimStart_cons, hlast]

end Text

namespace Timestamp

/-- The nanoseconds are those of a second, or else of a leap second, which can only be the last of
its minute. -/
def IsValid (t : Timestamp) : Prop :=
  t.nanos < nanosPerSecond ∨
    nanosPerSecond ≤ t.nanos ∧ t.nanos < 2 * nanosPerSecond ∧ t.seconds % 60 = 59

def year (t : Timestamp) : Int :=
  (Date.ofDays t.dayNumber).year

/-- The second of a minute as it is written: a leap second is second 60. -/
def writtenSecond (t : Timestamp) : Nat :=
  t.secondOfDay % 60 + if nanosPerSecond ≤ t.nanos then 1 else 0

/-- The nanoseconds as they are written, those of a leap second counted from its begin. -/
def writtenNanos (t : Timestamp) : Nat :=
  if nanosPerSecond ≤ t.nanos then t.nanos - nanosPerSecond else t.nanos

theorem writtenSecond_le (t : Timestamp) : t.writtenSecond ≤ 60 := by
  unfold writtenSecond
  split <;> omega

theorem writtenNanos_lt {t : Timestamp} (h : t.IsValid) : t.writtenNanos < nanosPerSecond := by
  unfold writtenNanos
  rcases h with hnanos | ⟨hleap, hlt, -⟩
  · rw [if_neg (Nat.not_le.2 hnanos)]
    exact hnanos
  · rw [if_pos hleap]
    omega

theorem takeFixed_writePadded {width n : Nat} (hwidth : 0 < width)
    (h : n < Number.powerOfTen width) (rest : List Char) :
    takeFixed width (Number.writePadded width n ++ rest) = some (n, rest) := by
  have hlength := Number.length_writePadded hwidth h
  have htake : (Number.writePadded width n ++ rest).take width = Number.writePadded width n := by
    rw [List.take_append_of_le_length (Nat.le_of_eq hlength.symm), List.take_of_length_le
      (Nat.le_of_eq hlength)]
  have hdrop : (Number.writePadded width n ++ rest).drop width = rest := by
    rw [List.drop_append_of_le_length (Nat.le_of_eq hlength.symm), List.drop_of_length_le
      (Nat.le_of_eq hlength), List.nil_append]
  rw [takeFixed, htake, hdrop, if_pos hlength, Number.readNatural_writePadded]
  rfl

theorem takeFixed_two {n : Nat} (h : n < 100) (rest : List Char) :
    takeFixed 2 (Number.writePadded 2 n ++ rest) = some (n, rest) :=
  takeFixed_writePadded (by decide) h rest

theorem expect_cons (c : Char) (cs : List Char) : expect c (c :: cs) = some cs := by
  rw [expect, if_pos rfl]

theorem takeFraction_writePadded {width n : Nat} (hwidth : 0 < width) (hnine : width ≤ 9)
    (h : n < Number.powerOfTen width) {c : Char} (hc : c.isDigit = false) (rest : List Char) :
    takeFraction ('.' :: Number.writePadded width n ++ c :: rest) =
      some (n * Number.powerOfTen (9 - width), c :: rest) := by
  have hdigits : ∀ d ∈ Number.writePadded width n, d.isDigit = true :=
    List.all_eq_true.1 (Number.all_isDigit_writePadded width n)
  have hlength := Number.length_writePadded hwidth h
  have htake : (Number.writePadded width n ++ c :: rest).takeWhile Char.isDigit =
      Number.writePadded width n := by
    rw [List.takeWhile_append_of_pos hdigits, List.takeWhile_cons_of_neg (by simp [hc]),
      List.append_nil]
  have hdrop : (Number.writePadded width n ++ c :: rest).dropWhile Char.isDigit = c :: rest := by
    rw [List.dropWhile_append_of_pos hdigits, List.dropWhile_cons_of_neg (by simp [hc])]
  rw [List.cons_append, takeFraction]
  simp only [htake, hdrop, List.take_of_length_le (Nat.le_trans (Nat.le_of_eq hlength) hnine),
    Number.readNatural_writePadded, hlength]
  rfl

theorem takeFraction_writeFraction {nanos : Nat} (h : nanos < nanosPerSecond) (rest : List Char) :
    takeFraction (writeFraction nanos ++ '+' :: rest) = some (nanos, '+' :: rest) := by
  have hplus : ('+').isDigit = false := by decide
  have hbound : nanos < 1000000000 := h
  unfold writeFraction
  by_cases hzero : nanos = 0
  · rw [if_pos hzero, hzero]
    rfl
  · rw [if_neg hzero]
    by_cases hmilli : nanos % 1000000 = 0
    · have hmillis : nanos / 1000000 < 1000 := by omega
      rw [if_pos hmilli, takeFraction_writePadded (by decide) (by decide) hmillis hplus]
      congr 2
      exact Nat.div_mul_cancel (Nat.dvd_of_mod_eq_zero hmilli)
    · rw [if_neg hmilli]
      by_cases hmicro : nanos % 1000 = 0
      · have hmicros : nanos / 1000 < 1000000 := by omega
        rw [if_pos hmicro, takeFraction_writePadded (by decide) (by decide) hmicros hplus]
        congr 2
        exact Nat.div_mul_cancel (Nat.dvd_of_mod_eq_zero hmicro)
      · rw [if_neg hmicro, takeFraction_writePadded (by decide) (by decide) hbound hplus]
        congr 2
        exact Nat.mul_one nanos

theorem readWithOffset_of_parts {year month day hour minute second nanos : Nat}
    (hyear : year < 10000) (hmonth : month < 100) (hday : day < 100) (hhour : hour < 100)
    (hminute : minute < 100) (hsecond : second < 100) (hnanos : nanos < nanosPerSecond) {d : Date}
    {t : Timestamp} (hd : date? year month day = some d)
    (ht : time? d hour minute second nanos = some t) :
    readWithOffset (Number.writePadded 4 year ++ '-' :: (Number.writePadded 2 month ++
      '-' :: (Number.writePadded 2 day ++ 'T' :: (Number.writePadded 2 hour ++
      ':' :: (Number.writePadded 2 minute ++ ':' :: (Number.writePadded 2 second ++
      (writeFraction nanos ++ ['+', '0', '0', ':', '0', '0']))))))) = some t := by
  have hoffset : takeOffset ['+', '0', '0', ':', '0', '0'] = some (0, []) := by decide
  have hmark : ∀ cs, takeMark ('T' :: cs) = some cs := fun _ => rfl
  refine Option.bind_eq_some_iff.2 ⟨_, takeFixed_writePadded (by decide) hyear _, ?_⟩
  refine Option.bind_eq_some_iff.2 ⟨_, expect_cons '-' _, ?_⟩
  refine Option.bind_eq_some_iff.2 ⟨_, takeFixed_two hmonth _, ?_⟩
  refine Option.bind_eq_some_iff.2 ⟨_, expect_cons '-' _, ?_⟩
  refine Option.bind_eq_some_iff.2 ⟨_, takeFixed_two hday _, ?_⟩
  refine Option.bind_eq_some_iff.2 ⟨_, hmark _, ?_⟩
  refine Option.bind_eq_some_iff.2 ⟨_, takeFixed_two hhour _, ?_⟩
  refine Option.bind_eq_some_iff.2 ⟨_, expect_cons ':' _, ?_⟩
  refine Option.bind_eq_some_iff.2 ⟨_, takeFixed_two hminute _, ?_⟩
  refine Option.bind_eq_some_iff.2 ⟨_, expect_cons ':' _, ?_⟩
  refine Option.bind_eq_some_iff.2 ⟨_, takeFixed_two hsecond _, ?_⟩
  refine Option.bind_eq_some_iff.2 ⟨_, takeFraction_writeFraction hnanos _, ?_⟩
  refine Option.bind_eq_some_iff.2 ⟨_, hoffset, ?_⟩
  refine Option.bind_eq_some_iff.2 ⟨_, hd, ?_⟩
  refine Option.bind_eq_some_iff.2 ⟨_, ht, ?_⟩
  simp

theorem seconds_eq (t : Timestamp) :
    t.seconds = t.dayNumber * 86400 + t.secondOfDay ∧ t.secondOfDay < 86400 := by
  simp only [dayNumber, secondOfDay, secondsPerDay]
  omega

theorem ofParts_ofDays {t : Timestamp} (h : t.IsValid) :
    ofParts (Date.ofDays t.dayNumber) (t.secondOfDay / 3600) (t.secondOfDay / 60 % 60)
      t.writtenSecond t.writtenNanos = t := by
  rcases t.seconds_eq with ⟨hseconds, hday⟩
  have hparts : t.secondOfDay / 3600 * 3600 + t.secondOfDay / 60 % 60 * 60 + t.secondOfDay % 60 =
      t.secondOfDay := by
    omega
  unfold writtenSecond writtenNanos
  rcases h with hnanos | ⟨hleap, -, hlast⟩
  · have hsecond : (t.secondOfDay % 60 == 60) = false := by
      rw [beq_eq_false_iff_ne]
      omega
    rw [if_neg (Nat.not_le.2 hnanos), if_neg (Nat.not_le.2 hnanos), ofParts, Date.toDays_ofDays]
    simp only [Nat.add_zero, hsecond, Bool.false_eq_true, if_false, hparts]
    rw [show (secondsPerDay : Int) = 86400 from rfl, ← hseconds]
  · have hsecond : t.secondOfDay % 60 = 59 := by omega
    rw [hsecond] at hparts
    rw [if_pos hleap, if_pos hleap, hsecond, ofParts, Date.toDays_ofDays]
    simp only [beq_self_eq_true, if_true, hparts, Nat.sub_add_cancel hleap]
    rw [show (secondsPerDay : Int) = 86400 from rfl, ← hseconds]

theorem date?_ofDays {n : Int} (hyear : 0 ≤ (Date.ofDays n).year ∧ (Date.ofDays n).year ≤ 9999) :
    date? (Date.ofDays n).year (Date.ofDays n).month (Date.ofDays n).day =
      some (Date.ofDays n) := by
  have hrange : isYearInRange (Date.ofDays n).year = true := by
    simp only [isYearInRange, Bool.and_eq_true, decide_eq_true_eq]
    omega
  rw [date?]
  apply if_pos
  rw [Bool.and_eq_true]
  exact ⟨Date.isValid_ofDays n, hrange⟩

/-- The text of a point in time in a year of four digits, part by part. -/
theorem write_eq {t : Timestamp} (hyear : 0 ≤ t.year ∧ t.year ≤ 9999) :
    t.write = Number.writePadded 4 t.year.natAbs ++
      '-' :: (Number.writePadded 2 (Date.ofDays t.dayNumber).month ++
      '-' :: (Number.writePadded 2 (Date.ofDays t.dayNumber).day ++
      'T' :: (Number.writePadded 2 (t.secondOfDay / 3600) ++
      ':' :: (Number.writePadded 2 (t.secondOfDay / 60 % 60) ++
      ':' :: (Number.writePadded 2 t.writtenSecond ++
      (writeFraction t.writtenNanos ++ ['+', '0', '0', ':', '0', '0'])))))) := by
  have hwriteYear : Date.writeYear t.year = Number.writePadded 4 t.year.natAbs := by
    rw [Date.writeYear, if_pos]
    simpa using hyear
  rw [year] at hwriteYear
  simp [write, Date.write, hwriteYear, year, writtenSecond, writtenNanos]

theorem exists_write_eq_cons {t : Timestamp} (hyear : 0 ≤ t.year ∧ t.year ≤ 9999) :
    ∃ first middle, first.isDigit = true ∧ t.write = first :: (middle ++ ['0']) := by
  obtain ⟨first, others, hcons, hfirst, -⟩ :=
    Number.exists_cons_of_digits (Number.writePadded_ne_nil 4 t.year.natAbs)
      (Number.all_isDigit_writePadded 4 t.year.natAbs)
  obtain ⟨middle, hmiddle⟩ : ∃ middle, t.write = first :: (middle ++ ['0']) := by
    rw [write_eq hyear, hcons]
    refine ⟨others ++ '-' :: (Number.writePadded 2 (Date.ofDays t.dayNumber).month ++
      '-' :: (Number.writePadded 2 (Date.ofDays t.dayNumber).day ++
      'T' :: (Number.writePadded 2 (t.secondOfDay / 3600) ++
      ':' :: (Number.writePadded 2 (t.secondOfDay / 60 % 60) ++
      ':' :: (Number.writePadded 2 t.writtenSecond ++
      (writeFraction t.writtenNanos ++ ['+', '0', '0', ':', '0'])))))), ?_⟩
    simp
  exact ⟨first, middle, hfirst, hmiddle⟩

/-- A valid point in time in a year of four digits is read as it was written. -/
theorem read_write {t : Timestamp} (h : t.IsValid) (hyear : 0 ≤ t.year ∧ t.year ≤ 9999) :
    read t.write = some t := by
  rcases exists_write_eq_cons hyear with ⟨first, middle, hfirst, hends⟩
  have htrim : Text.trim t.write = t.write := by
    rw [hends]
    exact Text.trim_eq_self (Text.isWhiteSpace_of_isDigit hfirst) (by decide)
  rcases Date.month_day_le t.dayNumber with ⟨hmonth, hday⟩
  have hsecondOfDay := t.seconds_eq.2
  have hsecond := t.writtenSecond_le
  have hdate : date? (t.year.natAbs : Nat) (Date.ofDays t.dayNumber).month
      (Date.ofDays t.dayNumber).day = some (Date.ofDays t.dayNumber) := by
    rw [Int.natAbs_of_nonneg hyear.1]
    exact date?_ofDays hyear
  have htime : time? (Date.ofDays t.dayNumber) (t.secondOfDay / 3600) (t.secondOfDay / 60 % 60)
      t.writtenSecond t.writtenNanos = some t := by
    rw [time?, ofParts_ofDays h]
    apply if_pos
    simp only [Bool.and_eq_true, decide_eq_true_eq]
    omega
  have hoffset := readWithOffset_of_parts (by omega) (by omega) (by omega) (by omega) (by omega)
    (by omega) (writtenNanos_lt h) hdate htime
  rw [← write_eq hyear] at hoffset
  rw [read]
  simp only [htrim, hoffset, Option.some_or]

end Timestamp

end RecordQuery
