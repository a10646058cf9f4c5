import RecordQuery.Catalog
import RecordQuery.Literal
import RecordQuery.Token.Stream

/-!
# Steps of reading a query

What filters and sort expressions are read with: the catalog and the time of the reading, and the
steps that take one token. A step is given the tokens that are left and returns those that are left
behind it. Literals are counted as they are read, and the first one over the limit of the catalog
ends the reading.
-/

namespace RecordQuery

structure Reading where
  catalog : Catalog
  now : Timestamp
  stream : TokenStream

structure Cursor where
  tokens : List Token
  parameters : Nat := 0
  deriving DecidableEq

def Catalog.columnOf (catalog : Catalog) (token : Token) : Except Fault Column :=
  match catalog.resolve token.text with
  | some column => .ok column
  | none => .error (.unknownColumn token.text token.position)

namespace Reading

def mismatch (column : Column) (token : Token) (reason : Mismatch) : Fault :=
  .typeMismatch column.name column.type token.text reason token.position

def next (r : Reading) (expected : Expected) (c : Cursor) : Except Fault (Token × Cursor) :=
  match c.tokens with
  | [] => .error (r.stream.endFault expected)
  | token :: tokens => .ok (token, { c with tokens := tokens })

def expect (r : Reading) (kind : TokenKind) (expected : Expected) (c : Cursor) :
    Except Fault (Token × Cursor) := do
  let (token, c) ← r.next expected c
  if token.kind = kind then .ok (token, c) else .error (.unexpectedToken token expected)

def limitExceededBy? (r : Reading) (parameters : Nat) : Option Nat :=
  r.catalog.maxParameters.filter fun maximum => maximum < parameters

/-- The value of a literal for a column, where `parameters` literals have been read before. -/
def literal (r : Reading) (column : Column) (parameters : Nat) (token : Token) :
    Except Fault Value :=
  if !token.isLiteral then .error (.unexpectedToken token .value)
  else
    match r.limitExceededBy? (parameters + 1) with
    | some maximum => .error (.tooManyParameters maximum token.position)
    | none => (Literal.convert r.now column.type token).mapError (mismatch column token)

def value (r : Reading) (column : Column) (c : Cursor) : Except Fault (Value × Cursor) := do
  let (token, rest) ← r.next .value c
  let v ← r.literal column c.parameters token
  .ok (v, { rest with parameters := c.parameters + 1 })

end Reading

end RecordQuery
