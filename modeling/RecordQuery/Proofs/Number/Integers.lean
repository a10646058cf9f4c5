import RecordQuery.Proofs.Number.Capacity
import RecordQuery.Proofs.Value.NaturalOrder

/-!
# Integers as decimals

A text that is read as an integer of any size is read as a decimal too, and the decimal is that
integer, as long as it has room for it (`Decimal.read_of_readSigned`). It has room for the integers
of a machine word, signed or unsigned, so that a number of a document keeps its value, as an integer
of 64 bits or as a decimal (`Value.number?_ofJsonNumber`).
-/

namespace RecordQuery

open Number (Decimal)

namespace Number

theorem toInt_of_int64? {n : Int} {i : Int64} (h : int64? n = some i) : i.toInt = n := by
  rw [int64?] at h
  split at h
  · next hfits =>
      rw [fitsInt64, Bool.and_eq_true, decide_eq_true_eq, decide_eq_true_eq] at hfits
      cases h
      exact Int64.toInt_ofInt_of_le (by omega) (by omega)
  · cases h

theorem natAbs_toInt_lt (i : Int64) : i.toInt.natAbs < Decimal.bound := by
  have hle := i.le_toInt
  have hlt := i.toInt_lt
  rw [Decimal.bound]
  omega

namespace Decimal

variable {cs : List Char} {m : Nat}

theorem readUnsigned_of_readNatural (h : readNatural cs = some m) (hm : m < bound) :
    readUnsigned cs = some (m, 0) := by
  rw [readNatural] at h
  split at h
  · next hcs =>
      rw [Bool.and_eq_true, Bool.not_eq_true', List.isEmpty_eq_false_iff] at hcs
      obtain ⟨first, whole, rfl, hfirst, hwhole⟩ := exists_cons_of_digits hcs.1 hcs.2
      have hplaces : ([] : List Char).all Char.isDigit = true := rfl
      have hread :=
        readUnsigned_eq hfirst hwhole hplaces rfl (Option.some.inj h) hm (Nat.zero_le _)
      rwa [List.length_nil, if_pos rfl, List.append_nil] at hread
  · cases h

theorem readMagnitude_of_readNatural (negative : Bool) (h : readNatural cs = some m)
    (hm : m < bound) : ∃ d, readMagnitude negative cs = some d ∧
      d.toRat = ((if negative then -(m : Int) else m : Int) : ℚ) := by
  have hread : readMagnitude negative cs =
      some ⟨negative && m != 0, m, 0, hm, Nat.zero_le _⟩ := by
    rw [readMagnitude, readUnsigned_of_readNatural h hm, Option.bind_some]
    exact ofParts?_of_fits _ hm (Nat.zero_le _)
  refine ⟨_, hread, ?_⟩
  obtain ⟨magnitude, hmagnitude, hcoefficient⟩ := coefficient_of_readMagnitude hread
  rw [readUnsigned_of_readNatural h hm] at hmagnitude
  obtain ⟨rfl, -⟩ := Prod.mk.inj (Option.some.inj hmagnitude)
  rw [toRat, hcoefficient]
  simp [powerOfTen]

/-- What is read as a signed number is digits, behind a sign that a decimal may have as well. -/
theorem exists_readMagnitude_of_readSigned {n : Int} (h : readSigned cs = some n) :
    ∃ negative digits m, readNatural digits = some m ∧
      (if negative then -(m : Int) else m) = n ∧
      readPlain cs = readMagnitude negative digits := by
  fun_cases readSigned cs with
  | case1 digits =>
      obtain ⟨_, hm, rfl⟩ := Option.map_eq_some_iff.1 h
      obtain ⟨m, hdigits, ⟨⟩⟩ := Option.bind_eq_some_iff.1 hm
      exact ⟨true, digits, m, hdigits, rfl, rfl⟩
  | case2 digits =>
      obtain ⟨_, hm, rfl⟩ := Option.map_eq_some_iff.1 h
      obtain ⟨m, hdigits, ⟨⟩⟩ := Option.bind_eq_some_iff.1 hm
      exact ⟨false, digits, m, hdigits, rfl, rfl⟩
  | case3 cs hminus hplus =>
      rw [readSigned.eq_3 _ hminus hplus] at h
      obtain ⟨_, hm, rfl⟩ := Option.map_eq_some_iff.1 h
      obtain ⟨m, hdigits, ⟨⟩⟩ := Option.bind_eq_some_iff.1 hm
      exact ⟨false, cs, m, hdigits, rfl, readPlain.eq_3 _ hminus hplus⟩

/-- The text of an integer is that of a decimal, if this has room for the integer. -/
theorem read_of_readSigned {n : Int} (h : readSigned cs = some n) (hn : n.natAbs < bound) :
    ∃ d, read cs = some d ∧ d.toRat = n := by
  obtain ⟨negative, digits, m, hm, hvalue, hplain⟩ := exists_readMagnitude_of_readSigned h
  have hbound : m < bound := by
    subst hvalue
    cases negative <;> simpa using hn
  obtain ⟨d, hd, hrat⟩ := readMagnitude_of_readNatural negative hm hbound
  exact ⟨d, by rw [read, hplain, hd, Option.some_or], by rw [hrat, hvalue]⟩

end Decimal

end Number

/-- A number of a document that is an integer stays that integer as a value. -/
theorem Value.number?_ofJsonNumber {n : Int} (h : (JsonNumber.integer n).IsMachineNumber) :
    (ofJsonNumber (.integer n)).number? = some (n : ℚ) := by
  unfold ofJsonNumber
  split
  · next i hi =>
      rw [number?, Number.toInt_of_int64? hi]
  · obtain ⟨d, hd, hvalue⟩ :=
      Decimal.read_of_readSigned (Number.readSigned_writeInteger n) h.natAbs_lt
    rw [JsonNumber.decimal?, hd]
    exact congrArg some hvalue

end RecordQuery
