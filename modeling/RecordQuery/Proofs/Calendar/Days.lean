import RecordQuery.Calendar.Date

/-!
# Days and their numbers

Every number of a day is that of the date it stands for (`Date.toDays_ofDays`), and that date is in
the calendar. Both come from the way a number is cut into cycles, centuries, spans and years
(`Date.exists_parts`): the days up to the first of March of a year are counted by these parts.
-/

namespace RecordQuery

namespace Date

def ofMarch (year : Int) (dayOfYear : Nat) : Date :=
  let sinceMarch := (5 * dayOfYear + 2) / 153
  let day := dayOfYear - daysBeforeMonth sinceMarch + 1
  if sinceMarch < 10 then ⟨year, sinceMarch + 3, day⟩ else ⟨year + 1, sinceMarch - 9, day⟩

theorem daysBeforeMarch_parts (cycle : Int) {century span year : Nat} (hcentury : century ≤ 3)
    (hspan : span ≤ 24) (hyear : year ≤ 3) :
    daysBeforeMarch (400 * cycle + 100 * century + 4 * span + year) =
      146097 * cycle + 36524 * century + 1461 * span + 365 * year := by
  unfold daysBeforeMarch
  omega

/-- A number of a day, cut into cycles of 400 years, centuries, spans of four years, and years. Only
the last year of a span has 366 days, and it has them in the last span of a century only if that is
the last century of its cycle. -/
theorem exists_parts (n : Int) :
    ∃ (cycle : Int) (century span year dayOfYear : Nat),
      century ≤ 3 ∧ span ≤ 24 ∧ year ≤ 3 ∧ dayOfYear ≤ 365 ∧
      (dayOfYear = 365 → year = 3 ∧ (span = 24 → century = 3)) ∧
      n + epochDays = 146097 * cycle + 36524 * century + 1461 * span + 365 * year + dayOfYear ∧
      ofDays n = ofMarch (400 * cycle + 100 * century + 4 * span + year) dayOfYear := by
  -- with a name for every part, each condition is linear in the names
  obtain ⟨days, hdays⟩ : ∃ days, days = n + epochDays := ⟨_, rfl⟩
  obtain ⟨inCycle, hinCycle⟩ : ∃ inCycle, inCycle = (days % 146097).toNat := ⟨_, rfl⟩
  obtain ⟨century, hcentury⟩ : ∃ century, century = min (inCycle / 36524) 3 := ⟨_, rfl⟩
  obtain ⟨inCentury, hinCentury⟩ : ∃ inCentury, inCentury = inCycle - 36524 * century := ⟨_, rfl⟩
  obtain ⟨year, hyear⟩ : ∃ year, year = min (inCentury % 1461 / 365) 3 := ⟨_, rfl⟩
  refine ⟨days / 146097, century, inCentury / 1461, year, inCentury % 1461 - 365 * year, ?_, ?_, ?_,
    ?_, ?_, ?_, ?_⟩
  · omega
  · omega
  · omega
  · omega
  · omega
  · omega
  · subst hyear hinCentury hcentury hinCycle hdays
    rfl

theorem toDays_ofMarch (year : Int) {dayOfYear : Nat} (h : dayOfYear ≤ 365) :
    (ofMarch year dayOfYear).toDays = daysBeforeMarch year + dayOfYear - epochDays := by
  obtain ⟨sinceMarch, hsinceMarch⟩ : ∃ m, m = (5 * dayOfYear + 2) / 153 := ⟨_, rfl⟩
  have hday : daysBeforeMonth sinceMarch ≤ dayOfYear := by
    unfold daysBeforeMonth
    omega
  rw [ofMarch, ← hsinceMarch]
  by_cases hmonth : sinceMarch < 10
  · simp only [hmonth, if_true, toDays]
    rw [if_neg (by omega), if_neg (by omega), Nat.add_sub_cancel]
    omega
  · simp only [hmonth, if_false, toDays]
    rw [if_pos (by omega), if_pos (by omega), Int.add_sub_cancel,
      Nat.sub_add_cancel (by omega)]
    omega

@[simp] theorem toDays_ofDays (n : Int) : (ofDays n).toDays = n := by
  obtain ⟨cycle, century, span, year, dayOfYear, hcentury, hspan, hyear, hday, -, hn, hdate⟩ :=
    exists_parts n
  rw [hdate, toDays_ofMarch _ hday, daysBeforeMarch_parts cycle hcentury hspan hyear]
  omega

/-- The days of a year that begins in March are in the calendar. A day 365 is one of February 29,
so the next year has to be a leap year. -/
theorem isValid_ofMarch {year : Int} {dayOfYear : Nat} (h : dayOfYear ≤ 365)
    (hleap : dayOfYear = 365 → isLeapYear (year + 1) = true) :
    (ofMarch year dayOfYear).isValid = true := by
  obtain ⟨sinceMarch, hsinceMarch⟩ : ∃ m, m = (5 * dayOfYear + 2) / 153 := ⟨_, rfl⟩
  rw [ofMarch, ← hsinceMarch]
  by_cases hfebruary : sinceMarch = 11
  · subst hfebruary
    change isValid ⟨year + 1, 2, dayOfYear - 337 + 1⟩ = true
    by_cases hd : dayOfYear = 365
    · simp [isValid, daysInMonth, hd, hleap hd]
    · have hlength : 28 ≤ daysInMonth (year + 1) 2 := by
        cases hyear : isLeapYear (year + 1) <;> simp [daysInMonth, hyear]
      simp [isValid]
      omega
  · have hmonths : sinceMarch = 0 ∨ sinceMarch = 1 ∨ sinceMarch = 2 ∨ sinceMarch = 3 ∨
        sinceMarch = 4 ∨ sinceMarch = 5 ∨ sinceMarch = 6 ∨ sinceMarch = 7 ∨ sinceMarch = 8 ∨
        sinceMarch = 9 ∨ sinceMarch = 10 := by
      omega
    rcases hmonths with rfl | rfl | rfl | rfl | rfl | rfl | rfl | rfl | rfl | rfl | rfl <;>
      simp [isValid, daysInMonth, daysBeforeMonth] <;> omega

theorem isValid_ofDays (n : Int) : (ofDays n).isValid = true := by
  obtain ⟨cycle, century, span, year, dayOfYear, hcentury, hspan, hyear, hday, hlast, -, hdate⟩ :=
    exists_parts n
  rw [hdate]
  apply isValid_ofMarch hday
  intro hd
  rcases hlast hd with ⟨rfl, hcycle⟩
  simp only [isLeapYear, Bool.and_eq_true, Bool.or_eq_true, beq_iff_eq, bne_iff_ne]
  omega

theorem month_day_le (n : Int) : (ofDays n).month ≤ 12 ∧ (ofDays n).day ≤ 31 := by
  have hvalid := isValid_ofDays n
  have hlength : daysInMonth (ofDays n).year (ofDays n).month ≤ 31 := by
    unfold daysInMonth
    split
    · split <;> decide
    · split <;> decide
  simp only [isValid, Bool.and_eq_true, decide_eq_true_eq] at hvalid
  omega

end Date

end RecordQuery
