import RecordQuery.Record
import RecordQuery.Text.Search
import RecordQuery.Calendar.Timestamp.Reader

/-!
# Matching records

Whether a record passes a filter. This never fails: a field that is missing, or holds something of
another shape than its column, just does not match.

* A null field passes `is null` and `ne`, an unreachable one nothing.
* A field that is present passes `is not null`. For every other test it must have the shape of its
  column's type; a text counts as a date if it can be read as one.
* Negation turns the result of a clause around, whatever the reason for it.
-/

namespace RecordQuery

def FieldType.coerce (type : FieldType) (v : Value) : Option Value :=
  match type, v with
  | .json, v => some v
  | .string, .string s => some (.string s)
  | .boolean, .boolean b => some (.boolean b)
  | .date, .date t => some (.date t)
  | .date, .string s => (Timestamp.read s.toList).map .date
  | .integer, .integer n => some (.integer n)
  | .integer, .decimal d => some (.decimal d)
  | .decimal, .integer n => some (.integer n)
  | .decimal, .decimal d => some (.decimal d)
  | _, _ => none

namespace Value

/-- The text of a literal for a text test: that of a string in lower case, and that of a number or
truth value as it is written. -/
def searchText? : Value → Option (List Char)
  | .string s => some (Text.lowerChars s.toList)
  | .integer n => some (Number.writeInteger n.toInt)
  | .decimal d => some d.write
  | .boolean true => some "true".toList
  | .boolean false => some "false".toList
  | _ => none

end Value

namespace Column

/-- Whether two values are equal on the column. On a column that ignores case, strings are equal if
they are so in lower case. -/
def equates (c : Column) (a b : Value) : Bool :=
  match c.caseInsensitive, a, b with
  | true, .string a, .string b => Text.lower a == Text.lower b
  | _, a, b => a.compare? b == some .eq

end Column

namespace Relation

def holds (r : Relation) (column : Column) (v literal : Value) : Bool :=
  match r with
  | .equal => column.equates v literal
  | .notEqual => !column.equates v literal
  | .greater => v.compare? literal == some .gt
  | .greaterOrEqual => v.compare? literal == some .gt || v.compare? literal == some .eq
  | .less => v.compare? literal == some .lt
  | .lessOrEqual => v.compare? literal == some .lt || v.compare? literal == some .eq

end Relation

namespace TextTest

def holdsOf (t : TextTest) (text needle : List Char) : Bool :=
  match t with
  | .contains => Text.contains text needle
  | .startsWith => Text.startsWith text needle
  | .endsWith => Text.endsWith text needle

def holds (t : TextTest) (v literal : Value) : Bool :=
  match v.string?, literal.searchText? with
  | some text, some needle => t.holdsOf (Text.lowerChars text.toList) needle
  | _, _ => false

end TextTest

namespace Operation

/-- Whether a present value, in the shape of the column, passes the operation with a literal. -/
def holds (o : Operation) (column : Column) (v literal : Value) : Bool :=
  match o with
  | .relation r => r.holds column v literal
  | .text t => t.holds v literal
  | .isNull => false
  | .isNotNull => false

end Operation

namespace Test

/-- Whether a value in the shape of the column passes the test. A criterion without a literal is
passed by no value. -/
def holdsOf (t : Test) (column : Column) (v : Value) : Bool :=
  match t with
  | .criterion _ none => false
  | .criterion operation (some literal) => operation.holds column v literal
  | .between lower upper =>
    (v.compare? lower == some .gt || v.compare? lower == some .eq) &&
      (v.compare? upper == some .lt || v.compare? upper == some .eq)
  | .oneOf literals => literals.any fun literal => column.equates v literal

def holds (t : Test) (column : Column) (found : Found) : Bool :=
  match t, found with
  | .criterion .isNull _, .null => true
  | .criterion .isNull _, _ => false
  | .criterion .isNotNull _, .present _ => true
  | .criterion .isNotNull _, _ => false
  | .criterion (.relation .notEqual) _, .null => true
  | t, .present v =>
    match column.type.coerce v with
    | some v => t.holdsOf column v
    | none => false
  | _, _ => false

end Test

/-- Two results joined by a conjunction. A clause without one counts as joined by `and`. -/
def joinBy (conjunction : Option Conjunction) (a b : Bool) : Bool :=
  match conjunction with
  | some .or => a || b
  | some .and => a && b
  | none => a && b

namespace Clause

mutual

def holds {ρ : Type} [Record ρ] (record : ρ) : Clause → Bool
  | .leaf negated _ path test => test.holds path.column (path.find record) != negated
  | .group negated _ children => sequenceHolds record children != negated

/-- Whether a record passes a sequence of clauses, which is read from left to right. Every record
passes the empty sequence. -/
def sequenceHolds {ρ : Type} [Record ρ] (record : ρ) : List Clause → Bool
  | [] => true
  | clause :: clauses => restHolds record (clause.holds record) clause.conjunction clauses

/-- The result of a sequence whose first clauses came to `result` and are joined to the rest by the
given conjunction. -/
def restHolds {ρ : Type} [Record ρ] (record : ρ) (result : Bool)
    (conjunction : Option Conjunction) : List Clause → Bool
  | [] => result
  | clause :: clauses =>
    restHolds record (joinBy conjunction result (clause.holds record)) clause.conjunction clauses

end

end Clause

namespace Filter

def holds {ρ : Type} [Record ρ] (f : Filter) (record : ρ) : Bool :=
  Clause.sequenceHolds record f.clauses

def select {ρ : Type} [Record ρ] (f : Filter) (records : List ρ) : List ρ :=
  records.filter f.holds

end Filter

end RecordQuery
