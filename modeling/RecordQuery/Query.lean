import RecordQuery.Filter.Reader
import RecordQuery.Order.Reader
import RecordQuery.Order.Compare

/-!
# Queries

A query selects records by a filter, puts them into an order, and cuts out one page of them. Pages
are counted from zero.
-/

namespace RecordQuery

structure Query where
  filter : Filter := {}
  order : List SortKey := []
  /-- The number of records on a page; without one there is a single page with all of them. -/
  pageSize : Option Nat := none
  pageNumber : Nat := 0

namespace Query

def maxSkip : Nat := 18446744073709551615

/-- The query that a filter and a sort expression stand for at the time `now`, without pages. -/
def ofText (catalog : Catalog) (now : Timestamp) (filter order : String) :
    Except QueryError Query := do
  let filter ← Filter.ofText catalog now filter
  let order ← SortKey.ofText catalog order
  .ok { filter, order }

def withPage (q : Query) (size number : Nat) : Query :=
  { q with pageSize := some size, pageNumber := number }

def page {α : Type} (q : Query) (records : List α) : List α :=
  match q.pageSize with
  | none => records
  | some size => (records.drop (min (size * q.pageNumber) maxSkip)).take size

def apply {ρ : Type} [Record ρ] (q : Query) (records : List ρ) : List ρ :=
  q.page (SortKey.sort q.order (q.filter.select records))

end Query

end RecordQuery
