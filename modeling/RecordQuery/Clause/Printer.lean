import RecordQuery.Clause
import RecordQuery.Token.Lexeme

/-!
# Writing filters

The canonical text of a filter: keywords in small letters, columns under their canonical names, one
blank between words. Strings and dates stand between apostrophes with every apostrophe doubled, so
that a literal cannot end before its text does. Values that no literal denotes are written as
`null`.
-/

namespace RecordQuery

namespace Value

def writeLiteral : Value → String
  | .string s => String.ofList (Lexeme.quoted s.toList).source
  | .integer n => String.ofList (Number.writeInteger n.toInt)
  | .decimal d => String.ofList d.write
  | .boolean true => "true"
  | .boolean false => "false"
  | .date t => String.ofList (Lexeme.quoted t.write).source
  | .null | .array _ | .object _ => "null"

end Value

namespace Path

/-- Keys as they stand behind a column, each a segment of its own. A key is written as it is: a key
segment has no way to escape what would close it. -/
def writeKeys : List String → String
  | [] => ""
  | key :: keys => String.ofList (Lexeme.key key.toList).source ++ writeKeys keys

def write (p : Path) : String :=
  p.column.name ++ writeKeys p.keys

end Path

namespace Test

def write : Test → String
  | .criterion operation none => operation.keyword
  | .criterion operation (some value) => operation.keyword ++ " " ++ value.writeLiteral
  | .between lower upper => "between " ++ lower.writeLiteral ++ " and " ++ upper.writeLiteral
  | .oneOf values => "in (" ++ ", ".intercalate (values.map Value.writeLiteral) ++ ")"

end Test

namespace Clause

mutual

def write : Clause → String
  | .leaf negated _ path test => (if negated then "not " else "") ++ path.write ++ " " ++ test.write
  | .group negated _ children =>
    (if negated then "not " else "") ++ "(" ++ writeSequence children ++ ")"

def writeSequence : List Clause → String
  | [] => ""
  | clause :: clauses =>
    clause.write ++
      (match clause.conjunction with
        | some conjunction => " " ++ conjunction.keyword ++ " "
        | none => "") ++ writeSequence clauses

end

end Clause

namespace Filter

def write (f : Filter) : String :=
  Clause.writeSequence f.clauses

end Filter

end RecordQuery
