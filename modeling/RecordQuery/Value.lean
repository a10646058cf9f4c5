import RecordQuery.Number.Decimal
import RecordQuery.Calendar.Timestamp

/-!
# Values

A value is an operand of a query or a field of a record. Integers and decimals are kept apart, so
that whole numbers compare exactly and fractions in base ten.

Two relations order values. `Value.compare?` is partial: it orders numbers among each other, and
strings, booleans and dates each among themselves. `Value.sortCompare` is total: where `compare?`
has no answer it goes by the kind of the two values, so that sorting never meets a pair without an
order. Values that neither relation tells apart, such as two arrays, are equal for sorting.
-/

namespace RecordQuery

open Number (Decimal)

/-- An operand of a query, or a field of a record. The fields of an object have different keys. -/
inductive Value where
  | null
  | boolean (b : Bool)
  | integer (n : Int64)
  | decimal (d : Decimal)
  | string (s : String)
  | date (t : Timestamp)
  | array (items : List Value)
  | object (fields : List (String × Value))

namespace Value

instance : Inhabited Value := ⟨.null⟩

def isNull : Value → Bool
  | .null => true
  | _ => false

def kindName : Value → String
  | .null => "null"
  | .boolean _ => "boolean"
  | .integer _ => "integer"
  | .decimal _ => "decimal"
  | .string _ => "string"
  | .date _ => "date"
  | .array _ => "array"
  | .object _ => "object"

def string? : Value → Option String
  | .string s => some s
  | _ => none

def decimal? : Value → Option Decimal
  | .integer n => some (Decimal.ofInt64 n)
  | .decimal d => some d
  | _ => none

def compare? : Value → Value → Option Ordering
  | .integer a, .integer b => some (compare a.toInt b.toInt)
  | .integer a, .decimal b => some ((Decimal.ofInt64 a).compare b)
  | .decimal a, .integer b => some (a.compare (Decimal.ofInt64 b))
  | .decimal a, .decimal b => some (a.compare b)
  | .string a, .string b => some (compare a b)
  | .boolean a, .boolean b => some (compare a b)
  | .date a, .date b => some (a.compare b)
  | _, _ => none

def rank : Value → Nat
  | .null => 0
  | .boolean _ => 1
  | .integer _ => 2
  | .decimal _ => 2
  | .string _ => 3
  | .date _ => 4
  | .array _ => 5
  | .object _ => 6

/-- The order for sorting: the natural order where there is one, else the order of the kinds. -/
def sortCompare (a b : Value) : Ordering :=
  (compare? a b).getD (compare a.rank b.rank)

mutual

/-- Whether two values are the same. Decimals are the same if they are equal as numbers, whatever
their scales; an integer is never the same as a decimal; objects are the same if they have the same
keys with the same values. -/
def same : Value → Value → Bool
  | .null, .null => true
  | .boolean a, .boolean b => a == b
  | .integer a, .integer b => a == b
  | .decimal a, .decimal b => a.compare b == .eq
  | .string a, .string b => a == b
  | .date a, .date b => a == b
  | .array a, .array b => sameItems a b
  | .object a, .object b => a.length == b.length && sameFields a b
  | _, _ => false

def sameItems : List Value → List Value → Bool
  | [], [] => true
  | a :: as, b :: bs => a.same b && sameItems as bs
  | _, _ => false

def sameFields : List (String × Value) → List (String × Value) → Bool
  | [], _ => true
  | (key, a) :: fields, others =>
    (match others.lookup key with
      | some b => a.same b
      | none => false) && sameFields fields others

end

instance : BEq Value := ⟨same⟩

@[simp] theorem isNull_null : isNull .null = true := rfl

theorem isNull_iff {v : Value} : v.isNull = true ↔ v = .null := by
  cases v <;> simp [isNull]

end Value

end RecordQuery
