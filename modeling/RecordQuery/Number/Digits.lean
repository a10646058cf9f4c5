/-!
# Decimal digits

Natural numbers as runs of the ten ASCII digits. `readNatural` accepts any non-empty run, with or
without leading zeros; `writeNatural` writes the run without them, and reading it gives the number
back.
-/

namespace RecordQuery

namespace Number

def digitValue (c : Char) : Nat :=
  c.toNat - '0'.toNat

def digitsValue (cs : List Char) : Nat :=
  Nat.ofDigitChars 10 cs 0

/-- A natural number: one or more digits and nothing else. -/
def readNatural (cs : List Char) : Option Nat :=
  if !cs.isEmpty && cs.all Char.isDigit then some (digitsValue cs) else none

def writeNatural (n : Nat) : List Char :=
  Nat.toDigits 10 n

/-- The digits of a natural number, filled up with leading zeros to at least `width`. -/
def writePadded (width n : Nat) : List Char :=
  List.replicate (width - (writeNatural n).length) '0' ++ writeNatural n

def powerOfTen (n : Nat) : Nat :=
  Nat.pow 10 n

theorem all_isDigit_writeNatural (n : Nat) : (writeNatural n).all Char.isDigit = true := by
  rw [List.all_eq_true]
  intro c h
  exact Nat.isDigit_of_mem_toDigits (by decide) (by decide) h

theorem writeNatural_ne_nil (n : Nat) : writeNatural n ≠ [] :=
  List.ne_nil_of_length_pos Nat.length_toDigits_pos

@[simp] theorem digitsValue_writeNatural (n : Nat) : digitsValue (writeNatural n) = n :=
  Nat.ofDigitChars_toDigits (by decide) (by decide)

@[simp] theorem readNatural_writeNatural (n : Nat) : readNatural (writeNatural n) = some n := by
  simp [readNatural, all_isDigit_writeNatural, writeNatural_ne_nil]

end Number

end RecordQuery
