/-!
# Tokens

The words of a query: names, literals, operators and punctuation, each with its place in the text.
Places are counted in characters.

Operators come in three groups. A relation compares a field with a literal, a text test looks for a
literal in a text, and `between`, `in` and `is` have a grammar of their own.
-/

namespace RecordQuery

inductive Relation where
  | equal
  | notEqual
  | greater
  | greaterOrEqual
  | less
  | lessOrEqual
  deriving DecidableEq

inductive TextTest where
  | contains
  | startsWith
  | endsWith
  deriving DecidableEq

inductive Operator where
  | relation (r : Relation)
  | text (t : TextTest)
  | between
  | oneOf
  | is
  deriving DecidableEq

inductive TokenKind where
  | identifier
  /-- Text between apostrophes, or the name of a key. -/
  | string
  | number
  | boolean (b : Bool)
  | null
  | operator (op : Operator)
  | and
  | or
  | not
  | openParen
  | closeParen
  | comma
  | openBracket
  | closeBracket
  deriving DecidableEq

structure Token where
  kind : TokenKind
  /-- The text of the token; of a string, what it stands for and not how it is written. -/
  text : String
  /-- The number of characters ahead of the token; of a key name, ahead of its first character. -/
  position : Nat
  deriving DecidableEq

namespace Relation

def keyword : Relation → String
  | .equal => "eq"
  | .notEqual => "ne"
  | .greater => "gt"
  | .greaterOrEqual => "ge"
  | .less => "lt"
  | .lessOrEqual => "le"

end Relation

namespace TextTest

def keyword : TextTest → String
  | .contains => "contains"
  | .startsWith => "startswith"
  | .endsWith => "endswith"

end TextTest

namespace Operator

def keyword : Operator → String
  | .relation r => r.keyword
  | .text t => t.keyword
  | .between => "between"
  | .oneOf => "in"
  | .is => "is"

def all : List Operator :=
  [.relation .equal, .relation .notEqual, .relation .greater, .relation .greaterOrEqual,
    .relation .less, .relation .lessOrEqual, .text .contains, .text .startsWith, .text .endsWith,
    .between, .oneOf, .is]

end Operator

namespace TokenKind

def isLiteral : TokenKind → Bool
  | .identifier | .string | .number | .boolean _ | .null => true
  | _ => false

end TokenKind

namespace Token

def isLiteral (t : Token) : Bool :=
  t.kind.isLiteral

def describe (t : Token) : String :=
  match t.kind with
  | .string => "string '" ++ t.text ++ "'"
  | .identifier => "identifier '" ++ t.text ++ "'"
  | _ => "'" ++ t.text ++ "'"

end Token

end RecordQuery
