import RecordQuery.Order
import RecordQuery.Filter.Match

/-!
# Sorting records

Records are compared key by key until one key tells them apart. A key looks at the whole field of
its column. A field that is missing, null or of another shape than its column comes before every
other; on a column that ignores case, strings are compared in lower case. Records that no key tells
apart keep the order in which they were given.
-/

namespace RecordQuery

namespace Column

/-- What a record is sorted by on a column, if it has a value of the column's shape that is not
null. -/
def sortValue? {ρ : Type} [Record ρ] (c : Column) (record : ρ) : Option Value :=
  match (Record.field record c.name).bind c.type.coerce with
  | some .null => none
  | some (.string s) => some (.string (if c.caseInsensitive then Text.lower s else s))
  | some v => some v
  | none => none

end Column

/-- The order of values that may be absent: those that are come first. -/
def compareOptional : Option Value → Option Value → Ordering
  | none, none => .eq
  | none, some _ => .lt
  | some _, none => .gt
  | some a, some b => a.sortCompare b

namespace SortKey

def compare {ρ : Type} [Record ρ] (k : SortKey) (a b : ρ) : Ordering :=
  k.direction.apply (compareOptional (k.column.sortValue? a) (k.column.sortValue? b))

def compareAll {ρ : Type} [Record ρ] (keys : List SortKey) (a b : ρ) : Ordering :=
  match keys with
  | [] => .eq
  | k :: keys => (k.compare a b).then (compareAll keys a b)

def sort {ρ : Type} [Record ρ] (keys : List SortKey) (records : List ρ) : List ρ :=
  records.mergeSort fun a b => compareAll keys a b != .gt

end SortKey

end RecordQuery
