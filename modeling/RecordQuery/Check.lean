import RecordQuery.Query
import RecordQuery.Clause.Printer
import RecordQuery.Catalog.Document

/-!
# Checking a query

A check takes everything as text: a catalog document, a filter, a sort expression, and records as a
JSON array of objects or a single object. It answers with the records that the query asks for, or,
if only the query is to be checked, with its canonical text. What is wrong is looked for in that
order: the catalog, the filter, the sort expression, the records.
-/

namespace RecordQuery

structure Check where
  catalog : String
  filter : String
  order : Option String := none
  records : Option String := none
  pageSize : Option Nat := none
  pageNumber : Nat := 0
  queryOnly : Bool := false

inductive CheckAnswer where
  | query (filter order : String)
  | records (records : List Json)

inductive CheckError where
  | query (e : QueryError)
  | catalog (e : CatalogError)
  | document (flaw : JsonFlaw)
  | noInput
  | notRecords (kind : String)

namespace JsonFlaw

def message : JsonFlaw → String
  | .malformed => "the text is not well-formed"
  | .truncated => "the text ends too early"
  | .misshapen => "the document does not have the form that is needed"

end JsonFlaw

namespace CatalogError

def message : CatalogError → String
  | .declaration e => e.message
  | .document flaw => "invalid catalog document: " ++ flaw.message

end CatalogError

namespace CheckError

def message : CheckError → String
  | .query e => "Query rejected: " ++ e.message
  | .catalog e => "Invalid catalog: " ++ e.message
  | .document flaw => "Invalid JSON: " ++ flaw.message
  | .noInput => "No input provided. Use --input or pipe JSON to stdin."
  | .notRecords kind =>
    "Input must be a JSON array of objects or a single object, got " ++ kind

end CheckError

namespace Check

def query (c : Check) (catalog : Catalog) (now : Timestamp) : Except QueryError Query := do
  let q ← Query.ofText catalog now c.filter (c.order.getD "")
  match c.pageSize with
  | some size => .ok (q.withPage size c.pageNumber)
  | none => .ok q

/-- The records in a document: the elements of an array, or one object. -/
def recordsOf : Json → Except CheckError (List Json)
  | .array items =>
    match items.find? fun item => !item.isObject with
    | some item => .error (.notRecords item.kindName)
    | none => .ok items
  | .object fields => .ok [.object fields]
  | document => .error (.notRecords document.kindName)

def run (c : Check) (now : Timestamp) : Except CheckError CheckAnswer := do
  let catalog ← (Catalog.ofText c.catalog).mapError .catalog
  let query ← (c.query catalog now).mapError .query
  if c.queryOnly then .ok (.query query.filter.write (SortKey.writeAll query.order))
  else
    match c.records with
    | none => .error .noInput
    | some text => do
      let document ← (Json.read text).mapError .document
      let records ← recordsOf document
      .ok (.records (query.apply records))

end Check

end RecordQuery
