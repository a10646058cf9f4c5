import RecordQuery.Catalog.Column

/-!
# Orders

An order is a list of keys to sort by, the most important first. Each is a column and a direction.
-/

namespace RecordQuery

inductive Direction where
  | ascending
  | descending
  deriving DecidableEq

structure SortKey where
  column : Column
  direction : Direction := .ascending
  deriving DecidableEq

namespace Direction

def keyword : Direction → String
  | .ascending => "asc"
  | .descending => "desc"

def ofWord? (word : String) : Option Direction :=
  match Text.lower word with
  | "asc" => some .ascending
  | "ascending" => some .ascending
  | "desc" => some .descending
  | "descending" => some .descending
  | _ => none

def apply : Direction → Ordering → Ordering
  | .ascending, o => o
  | .descending, o => o.swap

end Direction

namespace SortKey

def write (k : SortKey) : String :=
  k.column.name ++ " " ++ k.direction.keyword

def writeAll (keys : List SortKey) : String :=
  ", ".intercalate (keys.map write)

end SortKey

end RecordQuery
