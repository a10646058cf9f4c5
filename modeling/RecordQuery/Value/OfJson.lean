import RecordQuery.Value
import RecordQuery.Number.Decimal.Reader
import RecordQuery.Number.Decimal.OfBinary64
import RecordQuery.Json.Printer

/-!
# Values of JSON documents

A record is often a JSON document; this is how its fields become values. An integer that a signed
word holds stays one. Any other number becomes the decimal that its text denotes, or, where the
exponent in the text is too large for that, the decimal near the double; a number too large for a
decimal is null. Texts stay texts, dates included: whether a text is a date is for the column to
say.
-/

namespace RecordQuery

open Number (Decimal)

/-- The decimal for a number: the one that its text denotes, or else the one near the double. -/
def JsonNumber.decimal? : JsonNumber → Option Decimal
  | .integer n => Decimal.read (Number.writeInteger n)
  | .float x => (Decimal.read (Json.writeFloat x)).or (Decimal.ofBinary64? x)

def JsonNumber.int64? : JsonNumber → Option Int64
  | .integer n => Number.int64? n
  | .float _ => none

namespace Value

def ofJsonNumber (n : JsonNumber) : Value :=
  match n.int64? with
  | some i => .integer i
  | none =>
    match n.decimal? with
    | some d => .decimal d
    | none => .null

mutual

def ofJson : Json → Value
  | .null => .null
  | .boolean b => .boolean b
  | .number n => ofJsonNumber n
  | .string s => .string s
  | .array items => .array (ofJsonItems items)
  | .object fields => .object (ofJsonFields fields)

def ofJsonItems : List Json → List Value
  | [] => []
  | item :: items => ofJson item :: ofJsonItems items

def ofJsonFields : List (String × Json) → List (String × Value)
  | [] => []
  | (key, value) :: fields => (key, ofJson value) :: ofJsonFields fields

end

end Value

end RecordQuery
