import RecordQuery.Text.Casing

/-!
# Columns

A column is a field that a query may name: its canonical name, which is also the key of the field
in a record, further names, and what its values are.
-/

namespace RecordQuery

/-- The declared type of a column. Literals are converted to it when a query is read. -/
inductive FieldType where
  | string
  | integer
  | decimal
  | boolean
  | date
  /-- A document; a literal keeps the type in which it is written. -/
  | json
  deriving DecidableEq

namespace FieldType

def name : FieldType → String
  | .string => "string"
  | .integer => "integer"
  | .decimal => "decimal"
  | .boolean => "boolean"
  | .date => "date"
  | .json => "json"

def all : List FieldType :=
  [.string, .integer, .decimal, .boolean, .date, .json]

def ofName? (name : String) : Option FieldType :=
  all.find? fun type => type.name == name

def supportsTextTests : FieldType → Bool
  | .string | .json => true
  | .integer | .decimal | .boolean | .date => false

theorem supportsTextTests_iff {type : FieldType} :
    type.supportsTextTests = true ↔ type = .string ∨ type = .json := by
  cases type <;> simp [supportsTextTests]

@[simp] theorem ofName?_name (type : FieldType) : ofName? type.name = some type := by
  cases type <;> decide

end FieldType

structure Column where
  /-- The canonical name, and the key of the field in a record. -/
  name : String
  type : FieldType
  aliases : List String := []
  nested : Bool := false
  caseInsensitive : Bool := false
  deriving DecidableEq

namespace Column

def names (c : Column) : List String :=
  c.name :: c.aliases

end Column

end RecordQuery
