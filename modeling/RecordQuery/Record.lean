import RecordQuery.Clause
import RecordQuery.Value.OfJson

/-!
# Records

A record is whatever has values under names. A filter or an order asks it for its columns under
their canonical names and for nothing else.

A path of keys may lead further into the value of a field, by name into an object and by number into
an array. What is found there is a value, or nothing, or the path leads nowhere: a last key that is
missing is the same as null, but a missing key before the last, or one that asks for a part of a
value without parts, makes the field unreachable.
-/

namespace RecordQuery

class Record (ρ : Type) where
  field : ρ → String → Option Value

/-- A record given by its fields; of several under a name the first counts. -/
structure FieldMap where
  fields : List (String × Value)

instance : Record FieldMap where
  field r name := r.fields.lookup name

/-- A document is a record of the fields of an object; any other document has none. -/
instance : Record Json where
  field r name := (r.field? name).map Value.ofJson

instance {ρ α : Type} [Record ρ] : Record (ρ × α) where
  field r name := Record.field r.1 name

/-- What a path finds in a record. -/
inductive Found where
  | present (v : Value)
  | null
  | unreachable

namespace Value

/-- The part of a value under one key: a field of an object, or an element of an array. -/
def child? : Value → String → Option Value
  | .object fields, key => fields.lookup key
  | .array items, key => (Number.readIndex key.toList).bind fun index => items[index]?
  | _, _ => none

def hasChildren : Value → Bool
  | .object _ => true
  | .array _ => true
  | _ => false

def descend (v : Value) : List String → Found
  | [] => if v.isNull then .null else .present v
  | key :: keys =>
    if v.hasChildren then
      match v.child? key with
      | some child => child.descend keys
      | none => if keys.isEmpty then .null else .unreachable
    else .unreachable

end Value

namespace Path

def find {ρ : Type} [Record ρ] (p : Path) (record : ρ) : Found :=
  match Record.field record p.column.name with
  | some root => root.descend p.keys
  | none => .null

end Path

end RecordQuery
