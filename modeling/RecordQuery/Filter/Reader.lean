import RecordQuery.Reading
import RecordQuery.Clause

/-!
# Reading filters

A filter is read from its tokens by recursive descent, along this grammar:

    sequence := clause (("and" | "or") clause)*
    clause   := "not"? ("(" sequence ")" | column key* test)
    key      := "[" name "]"
    test     := relation literal | text-test literal
              | "is" "not"? "null"
              | "between" literal "and" literal
              | "in" "(" literal ("," literal)* ")"

A column is looked up, its keys and operator are held against what it supports, and every literal is
converted to its type as soon as it is read, so that the first token that does not fit decides the
error. A group with one clause in it is that clause. Groups may be nested 64 deep: `room` counts how
many may still be opened, and the recursion ends with it.
-/

namespace RecordQuery

namespace Filter

def readKeys (r : Reading) (column : Column) : List Token → Except Fault (List String × List Token)
  | [] => .ok ([], [])
  | opening :: tokens =>
    if opening.kind = .openBracket then
      if column.nested then
        match tokens with
        | [] => .error (r.stream.endFault .keyName)
        | key :: tokens =>
          if key.kind = .string then
            match tokens with
            | [] => .error (r.stream.endFault .closeBracket)
            | closing :: tokens =>
              if closing.kind = .closeBracket then do
                let (keys, rest) ← readKeys r column tokens
                .ok (key.text :: keys, rest)
              else .error (.unexpectedToken closing .closeBracket)
          else .error (.unexpectedToken key .keyName)
      else .error (Reading.mismatch column opening .keysNotSupported)
    else .ok ([], opening :: tokens)

/-- Reads the literals of a list and the parenthesis that closes it, where `parameters` literals
have been read before. -/
def readValues (r : Reading) (column : Column) (parameters : Nat) :
    List Token → Except Fault (List Value × Cursor)
  | [] => .error (r.stream.endFault .value)
  | token :: tokens => do
    let v ← r.literal column parameters token
    match tokens with
    | [] => .error (r.stream.endFault .listContinuation)
    | separator :: tokens =>
      if separator.kind = .comma then do
        let (vs, c) ← readValues r column (parameters + 1) tokens
        .ok (v :: vs, c)
      else if separator.kind = .closeParen then .ok ([v], ⟨tokens, parameters + 1⟩)
      else .error (.unexpectedToken separator .listContinuation)

def readList (r : Reading) (column : Column) (c : Cursor) : Except Fault (List Value × Cursor) := do
  let (_, c) ← r.expect .openParen .openParen c
  match c.tokens with
  | token :: tokens =>
    if token.kind = .closeParen then .error (.unexpectedToken token .someValue)
    else readValues r column c.parameters (token :: tokens)
  | [] => readValues r column c.parameters []

def readNullTest (r : Reading) (c : Cursor) : Except Fault (Test × Cursor) := do
  let (token, c) ← r.next .nullOrNotNull c
  if token.kind = .not then do
    let (_, c) ← r.expect .null .null c
    .ok (.criterion .isNotNull none, c)
  else if token.kind = .null then .ok (.criterion .isNull none, c)
  else .error (.unexpectedToken token .null)

def readBounds (r : Reading) (column : Column) (c : Cursor) : Except Fault (Test × Cursor) := do
  let (lower, c) ← r.value column c
  let (_, c) ← r.expect .and .and c
  let (upper, c) ← r.value column c
  .ok (.between lower upper, c)

def readTest (r : Reading) (column : Column) (c : Cursor) : Except Fault (Test × Cursor) := do
  let (token, c) ← r.next .operator c
  match token.kind with
  | .operator .is => readNullTest r c
  | .operator .between => readBounds r column c
  | .operator .oneOf => do
    let (vs, c) ← readList r column c
    .ok (.oneOf vs, c)
  | .operator (.text t) =>
    if column.type.supportsTextTests then do
      let (v, c) ← r.value column c
      .ok (.criterion (.text t) (some v), c)
    else .error (Reading.mismatch column token (.textOnly t))
  | .operator (.relation rel) => do
    let (v, c) ← r.value column c
    .ok (.criterion (.relation rel) (some v), c)
  | _ => .error (.unexpectedToken token .operator)

def readLeaf (r : Reading) (name : Token) (c : Cursor) : Except Fault (Clause × Cursor) := do
  let column ← r.catalog.columnOf name
  let (keys, tokens) ← readKeys r column c.tokens
  let (test, c) ← readTest r column { c with tokens := tokens }
  .ok (.leaf false none ⟨column, keys⟩ test, c)

def conjunctionOf? (token : Token) : Option Conjunction :=
  match token.kind with
  | .and => some .and
  | .or => some .or
  | _ => none

/-- Reads clauses with `clause` for as long as a conjunction follows, at most `fuel` of those. Since
each takes a token, as much fuel as there are tokens is enough. -/
def readSequence (clause : Cursor → Except Fault (Clause × Cursor)) :
    (fuel : Nat) → Cursor → Except Fault (List Clause × Cursor)
  | 0, c => do
    let (first, c) ← clause c
    .ok ([first], c)
  | fuel + 1, c => do
    let (first, c) ← clause c
    match c.tokens.head?.bind conjunctionOf? with
    | some conjunction => do
      let (others, c) ← readSequence clause fuel { c with tokens := c.tokens.tail }
      .ok (first.withConjunction conjunction :: others, c)
    | none => .ok ([first], c)

/-- What a group with the given clauses is: a single clause stands for itself. -/
def groupOf : List Clause → Clause
  | [clause] => clause.withConjunction none
  | clauses => .group false none clauses

/-- Reads the rest of a group that the token `opening` opens, its clauses by `clause`. -/
def readGroup (r : Reading) (clause : Cursor → Except Fault (Clause × Cursor)) (opening : Token)
    (c : Cursor) : Except Fault (Clause × Cursor) := do
  let (clauses, c) ← readSequence clause c.tokens.length c
  match c.tokens with
  | [] => .error (r.stream.pendingFault.getD (.unbalancedParenthesis opening.position))
  | token :: tokens =>
    if token.kind = .closeParen then .ok (groupOf clauses, { c with tokens := tokens })
    else .error (.unexpectedToken token .groupContinuation)

def readNegation (r : Reading) (c : Cursor) : Except Fault (Bool × Token × Cursor) := do
  let (token, c) ← r.next .columnOrGroup c
  if token.kind = .not then do
    let (token, c) ← r.next .columnOrGroup c
    .ok (true, token, c)
  else .ok (false, token, c)

def readClause (r : Reading) : (room : Nat) → Cursor → Except Fault (Clause × Cursor)
  | room, c => do
    let (negated, token, c) ← readNegation r c
    let (clause, c) ←
      match token.kind with
      | .openParen =>
        match room with
        | 0 => .error (.unexpectedToken token .shallowerGroup)
        | room + 1 => readGroup r (readClause r room) token c
      | .identifier => readLeaf r token c
      | _ => .error (.unexpectedToken token .columnOrGroup)
    .ok (clause.negateIf negated, c)

def readTokens (r : Reading) : Except Fault Filter :=
  match r.stream.tokens with
  | [] =>
    match r.stream.pendingFault with
    | some fault => .error fault
    | none => .ok ⟨[]⟩
  | token :: tokens => do
    let start : Cursor := ⟨token :: tokens, 0⟩
    let (clauses, c) ← readSequence (readClause r maxGroupDepth) start.tokens.length start
    match c.tokens with
    | token :: _ =>
      if token.kind = .closeParen then .error (.unbalancedParenthesis token.position)
      else .error (.unexpectedToken token .filterContinuation)
    | [] =>
      match r.stream.pendingFault with
      | some fault => .error fault
      | none => .ok ⟨clauses⟩

def ofStream (catalog : Catalog) (now : Timestamp) (stream : TokenStream) :
    Except QueryError Filter :=
  (readTokens ⟨catalog, now, stream⟩).mapError stream.error

/-- The filter that a text stands for at the time `now`. A text without tokens is the filter without
clauses. -/
def ofText (catalog : Catalog) (now : Timestamp) (text : String) : Except QueryError Filter :=
  ofStream catalog now (TokenStream.ofText text .filter)

end Filter

end RecordQuery
