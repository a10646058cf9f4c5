import RecordQuery.Proofs.Calendar.RoundTrip

/-!
# What is read is a point in time

Whatever notation a timestamp is read from, its nanoseconds are those of a second, or else of a leap
second at the end of its minute (`Timestamp.isValid_of_read`). A fraction has at most nine digits,
and offsets are whole minutes, so moving a time by one leaves the end of its minute where it is.
-/

namespace RecordQuery

namespace Timestamp

theorem nanos_lt_of_takeFraction {cs rest : List Char} {nanos : Nat}
    (h : takeFraction cs = some (nanos, rest)) : nanos < nanosPerSecond := by
  unfold takeFraction at h
  split at h
  · next digits =>
      rcases Option.map_eq_some_iff.1 h with ⟨n, hread, heq⟩
      rcases Prod.mk.inj heq with ⟨rfl, -⟩
      obtain ⟨width, hwidth⟩ : ∃ width, width = ((digits.takeWhile Char.isDigit).take 9).length :=
        ⟨_, rfl⟩
      have hlt : n < Number.powerOfTen width := by
        rw [hwidth]
        exact Number.lt_of_readNatural hread
      have hnine : width ≤ 9 := by
        rw [hwidth, List.length_take]
        exact Nat.min_le_left _ _
      rw [← hwidth]
      calc n * Number.powerOfTen (9 - width)
          < Number.powerOfTen width * Number.powerOfTen (9 - width) :=
            Nat.mul_lt_mul_of_pos_right hlt (Nat.pow_pos (by decide))
        _ = Number.powerOfTen (width + (9 - width)) := (Nat.pow_add 10 _ _).symm
        _ = nanosPerSecond := by rw [Nat.add_sub_cancel' hnine]; rfl
  · cases h
    decide

theorem offset_mod_of_takeOffset {cs rest : List Char} {offset : Int}
    (h : takeOffset cs = some (offset, rest)) : offset % 60 = 0 := by
  cases cs with
  | nil => cases h
  | cons c cs =>
      rw [takeOffset] at h
      split at h
      · cases h
        rfl
      · rcases Option.bind_eq_some_iff.1 h with ⟨sign, -, h⟩
        rcases Option.bind_eq_some_iff.1 h with ⟨⟨hours, cs⟩, -, h⟩
        rcases Option.bind_eq_some_iff.1 h with ⟨cs, -, h⟩
        rcases Option.bind_eq_some_iff.1 h with ⟨⟨minutes, cs⟩, -, h⟩
        dsimp only at h
        split at h
        · rcases Prod.mk.inj (Option.some.inj h) with ⟨rfl, -⟩
          have hminutes : (hours * 3600 + minutes * 60 : Nat) = 60 * (hours * 60 + minutes) := by
            omega
          rw [hminutes, Int.natCast_mul, Int.mul_left_comm]
          exact Int.mul_emod_right 60 _
        · cases h

theorem isValid_of_time? {d : Date} {hour minute second nanos : Nat} {t : Timestamp}
    (hnanos : nanos < nanosPerSecond) (h : time? d hour minute second nanos = some t) :
    t.IsValid := by
  rw [time?] at h
  split at h
  · cases h
    by_cases hleap : second = 60
    · subst hleap
      refine .inr ⟨Nat.le_add_left _ _, ?_, ?_⟩
      · simp only [ofParts, beq_self_eq_true, if_true]
        omega
      · simp only [ofParts, beq_self_eq_true, if_true, secondsPerDay]
        omega
    · have hsecond : (second == 60) = false := beq_false_of_ne hleap
      refine .inl ?_
      simpa [ofParts, hsecond] using hnanos
  · cases h

theorem isValid_ofDate (d : Date) : (ofDate d).IsValid :=
  .inl (Nat.zero_lt_succ _)

theorem isValid_midnight (t : Timestamp) (days : Int) : (t.midnight days).IsValid :=
  .inl (Nat.zero_lt_succ _)

theorem IsValid.sub_minutes {t : Timestamp} (h : t.IsValid) {offset : Int}
    (hoffset : offset % 60 = 0) : IsValid ⟨t.seconds - offset, t.nanos⟩ := by
  rcases h with hnanos | ⟨hle, hlt, hlast⟩
  · exact .inl hnanos
  · refine .inr ⟨hle, hlt, ?_⟩
    change (t.seconds - offset) % 60 = 59
    omega

theorem isValid_of_readWithOffset {cs : List Char} {t : Timestamp}
    (h : readWithOffset cs = some t) : t.IsValid := by
  rcases Option.bind_eq_some_iff.1 h with ⟨⟨year, cs⟩, -, h⟩
  rcases Option.bind_eq_some_iff.1 h with ⟨cs, -, h⟩
  rcases Option.bind_eq_some_iff.1 h with ⟨⟨month, cs⟩, -, h⟩
  rcases Option.bind_eq_some_iff.1 h with ⟨cs, -, h⟩
  rcases Option.bind_eq_some_iff.1 h with ⟨⟨day, cs⟩, -, h⟩
  rcases Option.bind_eq_some_iff.1 h with ⟨cs, -, h⟩
  rcases Option.bind_eq_some_iff.1 h with ⟨⟨hour, cs⟩, -, h⟩
  rcases Option.bind_eq_some_iff.1 h with ⟨cs, -, h⟩
  rcases Option.bind_eq_some_iff.1 h with ⟨⟨minute, cs⟩, -, h⟩
  rcases Option.bind_eq_some_iff.1 h with ⟨cs, -, h⟩
  rcases Option.bind_eq_some_iff.1 h with ⟨⟨second, cs⟩, -, h⟩
  rcases Option.bind_eq_some_iff.1 h with ⟨⟨nanos, cs⟩, hfraction, h⟩
  rcases Option.bind_eq_some_iff.1 h with ⟨⟨offset, cs⟩, hoffset, h⟩
  rcases Option.bind_eq_some_iff.1 h with ⟨date, -, h⟩
  rcases Option.bind_eq_some_iff.1 h with ⟨u, htime, h⟩
  split at h
  · cases h
    exact (isValid_of_time? (nanos_lt_of_takeFraction hfraction) htime).sub_minutes
      (offset_mod_of_takeOffset hoffset)
  · cases h

theorem isValid_of_readTime {date : Date} {cs : List Char} {t : Timestamp}
    (h : readTime date cs = some t) : t.IsValid := by
  rcases Option.bind_eq_some_iff.1 h with ⟨⟨hour, cs⟩, -, h⟩
  rcases Option.bind_eq_some_iff.1 h with ⟨cs, -, h⟩
  rcases Option.bind_eq_some_iff.1 h with ⟨⟨minute, cs⟩, -, h⟩
  rcases Option.bind_eq_some_iff.1 h with ⟨cs, -, h⟩
  rcases Option.bind_eq_some_iff.1 h with ⟨⟨second, cs⟩, -, h⟩
  rcases Option.bind_eq_some_iff.1 h with ⟨⟨nanos, cs⟩, hfraction, h⟩
  dsimp only at h
  split at h
  · exact isValid_of_time? (nanos_lt_of_takeFraction hfraction) h
  · cases h

theorem isValid_of_read {cs : List Char} {t : Timestamp} (h : read cs = some t) : t.IsValid := by
  rcases Option.or_eq_some_iff.1 h with hoffset | ⟨-, h⟩
  · exact isValid_of_readWithOffset hoffset
  · rcases Option.or_eq_some_iff.1 h with hjoined | ⟨-, h⟩
    · rcases Option.bind_eq_some_iff.1 hjoined with ⟨⟨date, cs⟩, -, h⟩
      rcases Option.bind_eq_some_iff.1 h with ⟨cs, -, h⟩
      exact isValid_of_readTime h
    · rcases Option.or_eq_some_iff.1 h with hspaced | ⟨-, h⟩
      · rcases Option.bind_eq_some_iff.1 hspaced with ⟨⟨date, cs⟩, -, h⟩
        exact isValid_of_readTime h
      · rcases Option.bind_eq_some_iff.1 h with ⟨⟨date, cs⟩, -, h⟩
        dsimp only at h
        split at h
        · cases h
          exact isValid_ofDate date
        · cases h

end Timestamp

end RecordQuery
