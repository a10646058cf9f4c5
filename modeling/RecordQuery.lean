import RecordQuery.Calendar.Date
import RecordQuery.Calendar.Timestamp
import RecordQuery.Calendar.Timestamp.Reader
import RecordQuery.Catalog
import RecordQuery.Catalog.Column
import RecordQuery.Catalog.Document
import RecordQuery.Check
import RecordQuery.Clause
import RecordQuery.Clause.Printer
import RecordQuery.Clause.Same
import RecordQuery.CommandLine
import RecordQuery.Filter.Match
import RecordQuery.Filter.Reader
import RecordQuery.Json.Basic
import RecordQuery.Json.Printer
import RecordQuery.Json.Reader
import RecordQuery.Json.Scanner
import RecordQuery.Json.Skip
import RecordQuery.Literal
import RecordQuery.Main
import RecordQuery.Manual
import RecordQuery.Number.Binary64
import RecordQuery.Number.Binary64.Reader
import RecordQuery.Number.Binary64.Shortest
import RecordQuery.Number.Decimal
import RecordQuery.Number.Decimal.OfBinary64
import RecordQuery.Number.Decimal.Reader
import RecordQuery.Number.Digits
import RecordQuery.Number.Integer
import RecordQuery.Order
import RecordQuery.Order.Compare
import RecordQuery.Order.Reader
import RecordQuery.Proofs.Filter.WellFormed
import RecordQuery.Proofs.Grammar
import RecordQuery.Proofs.Grammar.Leaf
import RecordQuery.Proofs.Grammar.Nesting
import RecordQuery.Proofs.Grammar.Reader
import RecordQuery.Proofs.Reading
import RecordQuery.Proofs.Token.Locality
import RecordQuery.Query
import RecordQuery.QueryError
import RecordQuery.Reading
import RecordQuery.Record
import RecordQuery.Text.Casing
import RecordQuery.Text.Casing.Classes
import RecordQuery.Text.Casing.Lowercase
import RecordQuery.Text.Ranges
import RecordQuery.Text.Search
import RecordQuery.Text.WhiteSpace
import RecordQuery.Token
import RecordQuery.Token.Lexeme
import RecordQuery.Token.Scan
import RecordQuery.Token.Stream
import RecordQuery.Value
import RecordQuery.Value.OfJson
import RecordQuery.Proofs.Filter.Composition
import RecordQuery.Proofs.Calendar.Days
import RecordQuery.Proofs.Calendar.RoundTrip
import RecordQuery.Proofs.Catalog.Names
import RecordQuery.Proofs.Literal.RoundTrip
import RecordQuery.Proofs.Clause.RoundTrip
import RecordQuery.Proofs.Filter.RoundTrip
import RecordQuery.Proofs.Order.Preorder
import RecordQuery.Proofs.Clause.Leaves
import RecordQuery.Proofs.Record.Absence
import RecordQuery.Proofs.Token.Image
import RecordQuery.Proofs.Path.RoundTrip
import RecordQuery.Proofs.Calendar.LongYears
import RecordQuery.Proofs.Calendar.Validity
import RecordQuery.Proofs.Number.Numerals
import RecordQuery.Proofs.Literal.Converted
import RecordQuery.Proofs.Query.StableSort
import RecordQuery.Proofs.Grammar.Operands
import RecordQuery.Proofs.Reading.Charge
import RecordQuery.Proofs.Reading.Verdict
import RecordQuery.Proofs.Token.Places
import RecordQuery.Proofs.Filter.Verdict
import RecordQuery.Proofs.Reading.Decision
import RecordQuery.Proofs.Order.Verdict
import RecordQuery.Proofs.Reading.FirstFault
import RecordQuery.Proofs.Reading.OpenEnd
import RecordQuery.Proofs.Filter.Budget
import RecordQuery.Proofs.Query.Footprint
import RecordQuery.Proofs.Token.Extent
import RecordQuery.Proofs.Token.Tiling
import RecordQuery.Proofs.Grammar.Pairing
import RecordQuery.Proofs.Reading.Placement
import RecordQuery.Proofs.Grammar.Spelling
import RecordQuery.Proofs.Reading.Lockstep
import RecordQuery.Proofs.Filter.Lockstep
import RecordQuery.Proofs.Grammar.Neighbours
import RecordQuery.Proofs.Token.Quoting
import RecordQuery.Proofs.Filter.Spelling
import RecordQuery.Proofs.Clause.Folding
import RecordQuery.Proofs.Text.Casing
import RecordQuery.Proofs.Catalog.Entries
import RecordQuery.Proofs.Text.Occurrence
import RecordQuery.Proofs.Number.Doubles
import RecordQuery.Proofs.Number.Shortest
import RecordQuery.Proofs.Number.Capacity
import RecordQuery.Proofs.Json.Numbers
import RecordQuery.Proofs.Record.Null
import RecordQuery.Proofs.Value.NaturalOrder
import RecordQuery.Proofs.Clause.Tests
import RecordQuery.Proofs.Clause.Relations
import RecordQuery.Proofs.Clause.Ranges
import RecordQuery.Proofs.Clause.Membership
import RecordQuery.Proofs.Record.Descent
import RecordQuery.Proofs.Clause.NullTable
import RecordQuery.Proofs.Order.Blocks
import RecordQuery.Proofs.Order.Successive
import RecordQuery.Proofs.Query.Pages
import RecordQuery.Proofs.Number.Integers
import RecordQuery.Proofs.Json.Integers
import RecordQuery.Proofs.Filter.Integers
import RecordQuery.Proofs.Catalog.Words
import RecordQuery.Proofs.Order.Grammar
import RecordQuery.Proofs.Order.RoundTrip
import RecordQuery.Proofs.Reading.GroupFaults
import RecordQuery.Proofs.Filter.Counter
import RecordQuery.Proofs.Filter.Depth
import RecordQuery.Proofs.Filter.Parenthesized
import RecordQuery.Proofs.Token.Embedding
import RecordQuery.Proofs.Token.Openings
import RecordQuery.Proofs.Token.Spacing
