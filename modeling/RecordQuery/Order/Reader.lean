import RecordQuery.Reading
import RecordQuery.Order

/-!
# Reading orders

A sort expression is a list of columns, each with or without a direction:

    order := column direction? ("," column direction?)*

A direction is a name like any other that happens to stand behind a column, so a column may be
named like one.
-/

namespace RecordQuery

namespace SortKey

def readKeys (catalog : Catalog) (stream : TokenStream) :
    List Token → Except Fault (List SortKey)
  | [] => .error (stream.endFault .columnName)
  | name :: tokens =>
    if name.kind = .identifier then do
      let column ← catalog.columnOf name
      match tokens with
      | [] => .ok [⟨column, .ascending⟩]
      | token :: tokens =>
        if token.kind = .comma then do
          let keys ← readKeys catalog stream tokens
          .ok (⟨column, .ascending⟩ :: keys)
        else if token.kind = .identifier then
          match Direction.ofWord? token.text with
          | none => .error (.unexpectedToken token .orderContinuation)
          | some direction =>
            match tokens with
            | [] => .ok [⟨column, direction⟩]
            | separator :: tokens =>
              if separator.kind = .comma then do
                let keys ← readKeys catalog stream tokens
                .ok (⟨column, direction⟩ :: keys)
              else .error (.unexpectedToken separator .orderContinuation)
        else .error (.unexpectedToken token .orderContinuation)
    else .error (.unexpectedToken name .columnName)

def readTokens (catalog : Catalog) (stream : TokenStream) : Except Fault (List SortKey) := do
  let keys ← if stream.tokens.isEmpty then .ok [] else readKeys catalog stream stream.tokens
  match stream.pendingFault with
  | some fault => .error fault
  | none => .ok keys

def ofStream (catalog : Catalog) (stream : TokenStream) : Except QueryError (List SortKey) :=
  (readTokens catalog stream).mapError stream.error

/-- The order that a text stands for. A text without tokens is the order without keys. -/
def ofText (catalog : Catalog) (text : String) : Except QueryError (List SortKey) :=
  ofStream catalog (TokenStream.ofText text .orderBy)

end SortKey

end RecordQuery
