import RecordQuery.Proofs.Json.Numbers

/-!
# The integers of a document

The digits of an integer of a machine word, signed or unsigned, are read as that integer wherever
they stand in a document, if what follows does not go on with the number
(`Json.readValue_writeInteger`), and by themselves too (`Json.read_writeInteger`).
-/

namespace RecordQuery

theorem Number.length_writeNatural_of_head? {m : Nat} (h : (writeNatural m).head? = some '0') :
    (writeNatural m).length = 1 := by
  obtain ⟨cs, hcs⟩ := List.head?_eq_some_iff.1 h
  by_contra hlength
  have hdigits : cs.all Char.isDigit = true := by
    have hall := all_isDigit_writeNatural m
    rw [hcs, List.all_cons, Bool.and_eq_true] at hall
    exact hall.2
  have hvalue : Nat.ofDigitChars 10 cs 0 = m := by
    have hwhole := digitsValue_writeNatural m
    rwa [hcs, digitsValue, Nat.ofDigitChars_cons] at hwhole
  rw [hcs, List.length_cons] at hlength
  have hlt : m < 10 ^ cs.length := by
    have hbound := ofDigitChars_lt hdigits 0
    rwa [hvalue, Nat.one_mul] at hbound
  have hle := (Nat.length_toDigits_le_iff (by decide) (by omega)).2 hlt
  change (writeNatural m).length ≤ cs.length at hle
  rw [hcs, List.length_cons] at hle
  omega

namespace Json

open Number (writeNatural writeInteger)

variable {rest : List Char}

/-- What is left does not go on with a number: it begins with no digit, no point and no exponent. -/
def EndsNumber (rest : List Char) : Prop :=
  ∀ c ∈ rest.head?, c.isDigit = false ∧ c ≠ '.' ∧ c ≠ 'e' ∧ c ≠ 'E'

theorem endsNumber_nil : EndsNumber [] :=
  fun _ h => by cases h

theorem endsNumber_cons {c : Char} (h : EndsNumber (c :: rest)) :
    c.isDigit = false ∧ c ≠ '.' ∧ c ≠ 'e' ∧ c ≠ 'E' :=
  h c rfl

theorem takeDigits_append {digits : List Char} (hdigits : digits.all Char.isDigit = true)
    (h : EndsNumber rest) :
    (digits ++ rest).takeWhile Char.isDigit = digits ∧
      (digits ++ rest).dropWhile Char.isDigit = rest := by
  rw [List.all_eq_true] at hdigits
  rw [List.takeWhile_append_of_pos hdigits, List.dropWhile_append_of_pos hdigits]
  cases rest with
  | nil => simp
  | cons c rest => simp [(endsNumber_cons h).1]

theorem readWhole_writeNatural (m : Nat) (h : EndsNumber rest) :
    readWhole (writeNatural m ++ rest) = .ok (writeNatural m, rest) := by
  have hdigits := Number.all_isDigit_writeNatural m
  have htake := takeDigits_append hdigits h
  obtain ⟨first, others, hcons, hfirst, -⟩ :=
    Number.exists_cons_of_digits (Number.writeNatural_ne_nil m) hdigits
  have hread : readDigits (writeNatural m ++ rest) = .ok (writeNatural m, rest) := by
    rw [hcons, List.cons_append] at htake ⊢
    rw [readDigits, if_pos hfirst, htake.1, htake.2]
  rw [readWhole, hread]
  change (if _ then _ else _) = _
  refine if_neg fun hzero => ?_
  rw [Bool.and_eq_true, beq_iff_eq, bne_iff_ne] at hzero
  exact hzero.2 (Number.length_writeNatural_of_head? hzero.1)

theorem readPlaces_of_endsNumber (h : EndsNumber rest) : readPlaces rest = .ok (none, rest) := by
  unfold readPlaces
  split
  · exact absurd rfl (endsNumber_cons h).2.1
  · rfl

theorem readExponent_of_endsNumber (h : EndsNumber rest) :
    readExponent rest = .ok (none, rest) := by
  cases rest with
  | nil => rfl
  | cons c rest =>
      obtain ⟨-, -, he, hE⟩ := endsNumber_cons h
      simp [readExponent.eq_def, he, hE]

theorem readNumber_writeNatural {negative : Bool} {m : Nat} {n : Int}
    (hword : wordInteger? negative m = some n) (h : EndsNumber rest) :
    readNumber negative (writeNatural m ++ rest) = .ok (.integer n, rest) := by
  rw [readNumber, readWhole_writeNatural m h]
  simp [bind, Except.bind, readPlaces_of_endsNumber h, readExponent_of_endsNumber h, hword]

theorem wordInteger?_natAbs {n : Int} (h : (JsonNumber.integer n).IsMachineNumber) :
    wordInteger? (n < 0) n.natAbs = some n := by
  rw [JsonNumber.IsMachineNumber] at h
  rw [wordInteger?]
  by_cases hn : n < 0
  · have hfits : 0 < n.natAbs ∧ n.natAbs ≤ 9223372036854775808 := by omega
    have hvalue : -(n.natAbs : Int) = n := by omega
    rw [if_pos (by simpa using hn), if_pos (by simpa using hfits), hvalue]
  · have hfits : n.natAbs ≤ 18446744073709551615 := by omega
    have hvalue : (n.natAbs : Int) = n := by omega
    rw [if_neg (by simpa using hn), if_pos (by simpa [Number.fitsUInt64] using hfits), hvalue]

theorem readValue_of_isDigit (room : Nat) {c : Char} {cs : List Char} {number : JsonNumber}
    (hc : c.isDigit = true) (h : readNumber false (c :: cs) = .ok (number, rest)) :
    readValue room (c :: cs) = .ok (.number number, rest) := by
  have hblank : isBlank c = false := by
    rw [← Bool.not_eq_true]
    intro hblank
    simp only [isBlank, Bool.or_eq_true, beq_iff_eq] at hblank
    obtain ((rfl | rfl) | rfl) | rfl := hblank <;> exact absurd hc (by decide)
  have hskip : skipBlanks (c :: cs) = c :: cs := by
    rw [skipBlanks, List.dropWhile_cons, hblank]
    rfl
  rw [readValue, hskip]
  split
  · next heq => cases heq
  all_goals
    next heq =>
      obtain ⟨rfl, rfl⟩ := List.cons.inj heq
      first
        | exact absurd hc (by decide)
        | rw [if_pos hc, h]; rfl

theorem readValue_writeInteger {n : Int} (room : Nat)
    (hn : (JsonNumber.integer n).IsMachineNumber) (h : EndsNumber rest) :
    readValue room (writeInteger n ++ rest) = .ok (.number (.integer n), rest) := by
  have hnumber := readNumber_writeNatural (wordInteger?_natAbs hn) h
  rw [writeInteger]
  by_cases hsign : n < 0
  · rw [decide_eq_true hsign] at hnumber
    rw [if_pos hsign, List.cons_append, readValue, skipBlanks]
    change (readNumber true _ >>= _) = _
    rw [hnumber]
    rfl
  · obtain ⟨c, digits, hcons, hc, -⟩ := Number.exists_cons_of_digits
      (Number.writeNatural_ne_nil n.natAbs) (Number.all_isDigit_writeNatural n.natAbs)
    rw [decide_eq_false hsign, hcons] at hnumber
    rw [if_neg hsign, hcons]
    exact readValue_of_isDigit room hc hnumber

theorem read_writeInteger {n : Int} (hn : (JsonNumber.integer n).IsMachineNumber) :
    read (String.ofList (writeInteger n)) = .ok (.number (.integer n)) := by
  have hvalue := readValue_writeInteger maxDepth hn endsNumber_nil
  rw [List.append_nil] at hvalue
  rw [read, readWholeText, String.toList_ofList, hvalue]
  rfl

end Json

end RecordQuery
