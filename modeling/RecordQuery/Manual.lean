import RecordQuery.Text.Casing

/-!
# The manual

The pages of help on the query language that the command line shows, and the names by which a page
is asked for. The case of a name does not matter, and a hyphen in it counts as an underscore.
-/

namespace RecordQuery

namespace Manual

inductive Topic where
  | clauses
  | operators
  | types
  | sorting
  | errors
  deriving DecidableEq

def topicNames : List (String × Topic) :=
  [("syntax", .clauses), ("operators", .operators), ("ops", .operators), ("types", .types),
    ("type", .types), ("order_by", .sorting), ("orderby", .sorting), ("sort", .sorting),
    ("errors", .errors), ("error", .errors)]

def topic? (name : String) : Option Topic :=
  let spelled := (Text.lowerChars name.toList).map fun c => if c = '-' then '_' else c
  topicNames.lookup (String.ofList spelled)

def unknownTopic (name : String) : String :=
  "Unknown category: '" ++ name ++ "'\nRun 'sift docs' to see available categories."

def page (lines : List String) : String :=
  lines.foldl (fun text line => text ++ line ++ "\n") ""

def overview : String :=
  page [
    "SIFT DOCUMENTATION",
    "",
    "Sift is a small filter and sort language for untrusted clients. Every column",
    "is checked against a catalog and every value is converted to the column's",
    "type before a query runs, so a bad query fails at parse time with a message",
    "that points at the offending text.",
    "",
    "DOCUMENTATION CATEGORIES",
    "",
    "  syntax            Clauses, conjunctions, negation and grouping",
    "  operators         Comparison, text search, between, in and null tests",
    "  types             Column types and how literals are converted",
    "  order-by          Sort expressions",
    "  errors            What each error means and where its position points",
    "",
    "QUICK REFERENCE",
    "",
    "  name eq 'Alice'                   Comparison",
    "  name startswith 'A'               Text search (case-insensitive)",
    "  id between 2 and 4                Inclusive range",
    "  id in (1, 2, 57)                  Membership",
    "  name is not null                  Null test",
    "  a eq 1 and (b eq 2 or c eq 3)     Grouping",
    "  metadata[\"color\"] eq 'red'        Nested key",
    "",
    "Run 'sift doc <category>' for detailed documentation."]

def clauses : String :=
  page [
    "SYNTAX - Clauses and Grouping",
    "",
    "CLAUSE",
    "  column operator value",
    "    Column names are resolved case-insensitively against the catalog.",
    "    Aliases declared in the catalog are accepted too.",
    "",
    "    Example:",
    "      id gt 1",
    "      Name eq 'Alice Smith'",
    "",
    "STRING LITERALS",
    "  'text'",
    "    Single quotes. Write a doubled apostrophe for a literal one.",
    "",
    "    Example:",
    "      name eq 'O''Shea'",
    "",
    "CONJUNCTIONS",
    "  clause and clause",
    "  clause or clause",
    "    There is no precedence. A sequence is folded strictly left to right:",
    "",
    "      a or b and c     means   (a or b) and c",
    "",
    "    Use parentheses to group explicitly.",
    "",
    "NEGATION",
    "  not clause",
    "  not ( sequence )",
    "    Inverts a single clause or a group.",
    "",
    "GROUPING",
    "  ( sequence )",
    "    A group with a single clause is the same as the clause itself.",
    "",
    "NESTED KEYS",
    "  column[\"key\"][\"sub\"]",
    "    Only for columns declared with \"nested\": true. A missing final key is",
    "    null; a missing intermediate key never matches anything.",
    "",
    "EMPTY FILTER",
    "  An empty filter matches every record."]

def operators : String :=
  page [
    "OPERATORS",
    "",
    "COMPARISON",
    "  eq   =  ==        Equal",
    "  ne   != <>        Not equal (also matches null fields)",
    "  gt   >            Greater than",
    "  ge   >=           Greater than or equal",
    "  lt   <            Less than",
    "  le   <=           Less than or equal",
    "",
    "TEXT SEARCH (string and json columns only)",
    "  contains          Substring, case-insensitive",
    "  startswith        Prefix, case-insensitive",
    "  endswith          Suffix, case-insensitive",
    "",
    "    Example:",
    "      name contains 's'",
    "",
    "RANGE",
    "  column between low and high",
    "    Inclusive on both ends. If low is greater than high nothing matches.",
    "",
    "MEMBERSHIP",
    "  column in (v1, v2, ...)",
    "    At least one value is required. Order does not matter.",
    "",
    "NULL TESTS",
    "  column is null",
    "  column is not null",
    "    The only way to test for null. An unquoted null used as a value is the",
    "    text \"null\"."]

def types : String :=
  page [
    "TYPES - Column Types and Literal Conversion",
    "",
    "Every literal is converted to its column's declared type when the query is",
    "parsed. A value that does not convert is rejected.",
    "",
    "  string     Any literal, kept as text",
    "  integer    Whole numbers:              id eq 57",
    "  decimal    Exact base-10 numbers:      paycheck le 1000.50",
    "  boolean    true / false:               active eq true",
    "  date       ISO-8601 text:              hired gt '2020-01-01'",
    "             or a keyword:               hired lt today",
    "             Keywords: now, today, tomorrow, yesterday (UTC)",
    "  json       Untyped. Numbers, booleans and text keep the type the",
    "             literal was written in.",
    "",
    "Text search operators are rejected on integer, decimal, boolean and date",
    "columns."]

def sorting : String :=
  page [
    "ORDER BY",
    "",
    "  column [asc|desc], column [asc|desc], ...",
    "    Direction defaults to asc. ascending and descending are accepted too.",
    "",
    "    Example:",
    "      name asc, hired desc",
    "",
    "  Nulls sort before every other value. Records that compare equal keep",
    "  their input order."]

def errors : String :=
  page [
    "ERRORS",
    "",
    "Every error carries the original text, whether it came from the filter or",
    "the order by, and the character offset it points at.",
    "",
    "  unknown column            The name is not in the catalog",
    "  unterminated string       A ' was never closed; points at the opening quote",
    "  unterminated json key     A [\" was never closed; points at the [",
    "  field type mismatch       A value does not convert to the column type, or",
    "                            an operator does not apply to it",
    "  too many parameters       The query has more values than the catalog allows;",
    "                            points at the first value over the limit",
    "  unexpected token          Something other than what the grammar expects,",
    "                            or a ( nested more than 64 groups deep",
    "  unbalanced parentheses    A ( without ) or a ) without ("]

namespace Topic

def text : Topic → String
  | .clauses => Manual.clauses
  | .operators => Manual.operators
  | .types => Manual.types
  | .sorting => Manual.sorting
  | .errors => Manual.errors

end Topic

end Manual

end RecordQuery
