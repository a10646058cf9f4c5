import RecordQuery.QueryError
import RecordQuery.Value
import RecordQuery.Number.Decimal.Reader
import RecordQuery.Calendar.Timestamp.Reader

/-!
# Literals

A literal is converted to the type of the column it is compared with. The unquoted word `null` is a
text like any other here: only the null tests speak of null. A document column takes a literal as
it is written: a number as an integer or, failing that, a decimal, a truth value as such, and
anything else as text.

The words `now`, `today`, `tomorrow` and `yesterday` are dates relative to the given time.
-/

namespace RecordQuery

open Number (Decimal)

namespace Literal

def dateOfWord? (now : Timestamp) (word : String) : Option Timestamp :=
  match Text.lower word with
  | "now" => some now
  | "today" => some (now.midnight 0)
  | "tomorrow" => some (now.midnight 1)
  | "yesterday" => some (now.midnight (-1))
  | _ => none

def booleanOfWord? (word : String) : Option Bool :=
  match Text.lower word with
  | "true" => some true
  | "false" => some false
  | _ => none

def orMismatch (value : Option Value) (reason : Mismatch) : Except Mismatch Value :=
  match value with
  | some v => .ok v
  | none => .error reason

def numberValue? (cs : List Char) : Option Value :=
  match Number.readInteger cs with
  | some n => some (.integer n)
  | none => (Decimal.read cs).map .decimal

def convert (now : Timestamp) (type : FieldType) (token : Token) : Except Mismatch Value :=
  let cs := token.text.toList
  match type with
  | .string => .ok (.string token.text)
  | .integer => orMismatch ((Number.readInteger cs).map .integer) .notInteger
  | .decimal => orMismatch ((Decimal.read cs).map .decimal) .notDecimal
  | .boolean => orMismatch ((booleanOfWord? token.text).map .boolean) .notBoolean
  | .date => orMismatch (((dateOfWord? now token.text).or (Timestamp.read cs)).map .date) .notDate
  | .json =>
    match token.kind with
    | .number => orMismatch (numberValue? cs) .notNumber
    | .boolean b => .ok (.boolean b)
    | _ => .ok (.string token.text)

end Literal

end RecordQuery
