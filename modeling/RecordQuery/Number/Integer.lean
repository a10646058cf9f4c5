import RecordQuery.Number.Digits

/-!
# Integers in text

The two readers of whole numbers. `readInteger` takes an optional sign and digits and accepts what
a signed word of 64 bits can hold. `readIndex` reads a position in an array: an optional plus sign
and digits, within an unsigned word of 64 bits; it knows no minus sign, not even before a zero.
-/

namespace RecordQuery

namespace Number

def fitsInt64 (n : Int) : Bool :=
  -9223372036854775808 ≤ n && n ≤ 9223372036854775807

def fitsUInt64 (n : Nat) : Bool :=
  n ≤ 18446744073709551615

def int64? (n : Int) : Option Int64 :=
  if fitsInt64 n then some (Int64.ofInt n) else none

def readSigned : List Char → Option Int
  | '-' :: cs => (readNatural cs).map fun n => -(n : Int)
  | '+' :: cs => (readNatural cs).map fun n => (n : Int)
  | cs => (readNatural cs).map fun n => (n : Int)

/-- An integer of 64 bits: an optional sign, then digits. -/
def readInteger (cs : List Char) : Option Int64 :=
  (readSigned cs).bind int64?

/-- The position of an element of an array: an optional plus sign, then digits. -/
def readIndex (cs : List Char) : Option Nat :=
  (readNatural (match cs with
    | '+' :: rest => rest
    | rest => rest)).filter fitsUInt64

def writeInteger (n : Int) : List Char :=
  if n < 0 then '-' :: writeNatural n.natAbs else writeNatural n.natAbs

end Number

end RecordQuery
