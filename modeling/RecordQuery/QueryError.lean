import RecordQuery.Token
import RecordQuery.Catalog.Column
import RecordQuery.Number.Digits

/-!
# Errors in queries

A query is refused for one cause, its `Fault`, which names the place in the text and what is wrong
there. A `QueryError` adds the text itself and whether it was a filter or a sort expression, and is
what a client is shown.

Faults are data; all wording is in this module.
-/

namespace RecordQuery

inductive QueryContext where
  | filter
  | orderBy
  deriving DecidableEq

def maxGroupDepth : Nat := 64

inductive Mismatch where
  | notInteger
  | notDecimal
  | notBoolean
  | notDate
  | notNumber
  | keysNotSupported
  | textOnly (t : TextTest)
  deriving DecidableEq

inductive Expected where
  | columnOrGroup
  | columnName
  | shallowerGroup
  | groupContinuation
  | filterContinuation
  | orderContinuation
  | operator
  | nullOrNotNull
  | null
  | and
  | keyName
  | closeBracket
  | openParen
  | someValue
  | value
  | listContinuation
  deriving DecidableEq

inductive Fault where
  | unknownColumn (name : String) (position : Nat)
  | unterminatedLiteral (position : Nat)
  | unterminatedKey (position : Nat)
  | typeMismatch (column : String) (type : FieldType) (value : String) (reason : Mismatch)
      (position : Nat)
  | tooManyParameters (maximum : Nat) (position : Nat)
  | unexpectedToken (token : Token) (expected : Expected)
  | unexpectedEnd (expected : Expected) (position : Nat)
  | unbalancedParenthesis (position : Nat)
  deriving DecidableEq

structure QueryError where
  text : String
  context : QueryContext
  fault : Fault
  deriving DecidableEq

namespace QueryContext

def name : QueryContext → String
  | .filter => "filter"
  | .orderBy => "order by"

end QueryContext

namespace Mismatch

def message : Mismatch → String
  | .notInteger => "expected an integer"
  | .notDecimal => "expected a decimal number"
  | .notBoolean => "expected 'true' or 'false'"
  | .notDate => "expected an ISO-8601 date"
  | .notNumber => "expected a number"
  | .keysNotSupported => "column does not support nested keys"
  | .textOnly t => "'" ++ t.keyword ++ "' requires a string column"

end Mismatch

def numeral (n : Nat) : String :=
  String.ofList (Number.writeNatural n)

namespace Expected

def message : Expected → String
  | .columnOrGroup => "a column name or '('"
  | .columnName => "a column name"
  | .shallowerGroup => "at most " ++ numeral maxGroupDepth ++ " nested groups"
  | .groupContinuation => "'and', 'or' or ')'"
  | .filterContinuation => "'and', 'or' or end of input"
  | .orderContinuation => "'asc', 'desc', ',' or end of input"
  | .operator => "an operator"
  | .nullOrNotNull => "'null' or 'not null'"
  | .null => "'null'"
  | .and => "'and'"
  | .keyName => "a key name in the format [\"KeyName\"]"
  | .closeBracket => "']'"
  | .openParen => "'('"
  | .someValue => "at least one value"
  | .value => "a value"
  | .listContinuation => "',' or ')'"

end Expected

namespace Fault

def position : Fault → Nat
  | .unknownColumn _ position => position
  | .unterminatedLiteral position => position
  | .unterminatedKey position => position
  | .typeMismatch _ _ _ _ position => position
  | .tooManyParameters _ position => position
  | .unexpectedToken token _ => token.position
  | .unexpectedEnd _ position => position
  | .unbalancedParenthesis position => position

def message : Fault → String
  | .unknownColumn name position =>
    "referenced an unknown column '" ++ name ++ "' at position " ++ numeral position
  | .unterminatedLiteral position =>
    "contained an unterminated string literal that starts at " ++ numeral position
  | .unterminatedKey position =>
    "contained an unterminated JSON Key that starts at " ++ numeral position ++
      ". JSON Keys should be in the format [\"\x7bKeyName\x7d\"]"
  | .typeMismatch column type value reason position =>
    "compared column '" ++ column ++ "' of type " ++ type.name ++ " with an incompatible value '" ++
      value ++ "' at position " ++ numeral position ++ ": " ++ reason.message
  | .tooManyParameters maximum _ =>
    "exceeded the maximum of " ++ numeral maximum ++ " parameters"
  | .unexpectedToken token expected =>
    "has an unexpected " ++ token.describe ++ " at position " ++ numeral token.position ++
      "; expected " ++ expected.message
  | .unexpectedEnd expected position =>
    "has an unexpected end of input at position " ++ numeral position ++
      "; expected " ++ expected.message
  | .unbalancedParenthesis position =>
    "has an unbalanced parenthesis at position " ++ numeral position

end Fault

namespace QueryError

def position (e : QueryError) : Nat :=
  e.fault.position

def message (e : QueryError) : String :=
  "The query " ++ e.context.name ++ ", " ++ e.text ++ ", " ++ e.fault.message

end QueryError

end RecordQuery
