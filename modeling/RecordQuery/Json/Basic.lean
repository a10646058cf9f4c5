import RecordQuery.Number.Binary64

/-!
# JSON documents

A number keeps the distinction that its text makes: an integer within the range of a machine word,
signed or unsigned, is exact, and every other number is a double. An object lists its fields in
increasing order of their keys, by code point, with one value for each key.
-/

namespace RecordQuery

inductive JsonNumber where
  | integer (n : Int)
  | float (x : Number.Binary64)
  deriving DecidableEq

inductive Json where
  | null
  | boolean (b : Bool)
  | number (n : JsonNumber)
  | string (s : String)
  | array (items : List Json)
  | object (fields : List (String × Json))

namespace Json

instance : Inhabited Json := ⟨.null⟩

/-- Puts a value at a key of a list of fields ordered by key, in place of the value that may be
there. -/
def insertField {α : Type} (key : String) (value : α) : List (String × α) → List (String × α)
  | [] => [(key, value)]
  | (k, v) :: fields =>
    if key = k then (key, value) :: fields
    else if key < k then (key, value) :: (k, v) :: fields
    else (k, v) :: insertField key value fields

/-- The object with the given fields; of several values for a key the last one counts. -/
def ofFields (fields : List (String × Json)) : Json :=
  .object (fields.foldl (fun sorted field => insertField field.1 field.2 sorted) [])

def field? : Json → String → Option Json
  | .object fields, key => fields.lookup key
  | _, _ => none

def isObject : Json → Bool
  | .object _ => true
  | _ => false

def kindName : Json → String
  | .null => "null"
  | .boolean _ => "boolean"
  | .number _ => "number"
  | .string _ => "string"
  | .array _ => "array"
  | .object _ => "object"

end Json

inductive JsonFlaw where
  | malformed
  | truncated
  | misshapen
  deriving DecidableEq

end RecordQuery
