import RecordQuery.Token.Scan
import RecordQuery.QueryError

/-!
# Token streams

The tokens of a text together with what a parser has to know about the text besides: its kind, its
length, and whether something in it was opened and never closed. That is no error as long as there
are tokens to read; it becomes one where a parser runs out of them.
-/

namespace RecordQuery

/-- The tokens of a text that are still to be read, and what was noticed on scanning it. -/
structure TokenStream where
  text : String
  context : QueryContext
  tokens : List Token
  hasUnterminatedLiteral : Bool := false
  hasUnterminatedKeyName : Bool := false
  /-- The place of the last apostrophe that opened a literal; zero if there is none. -/
  lastQuote : Nat := 0
  /-- The place of the last bracket that opened a key segment; zero if there is none. -/
  lastKey : Nat := 0
  deriving DecidableEq

namespace TokenStream

def ofText (text : String) (context : QueryContext) : TokenStream :=
  let scan := Scan.of 0 text.toList
  { text := text
    context := context
    tokens := scan.tokens
    hasUnterminatedLiteral := scan.leavesOpen .quote
    hasUnterminatedKeyName := scan.leavesOpen .key
    lastQuote := scan.lastOpening .quote
    lastKey := scan.lastOpening .key }

def pop (s : TokenStream) : Option Token × TokenStream :=
  (s.tokens.head?, { s with tokens := s.tokens.tail })

def textLength (s : TokenStream) : Nat :=
  s.text.toList.length

/-- What the text ends inside of, by the flags. A literal goes before a key segment. -/
def unterminated (s : TokenStream) : Option Opening :=
  if s.hasUnterminatedLiteral then some .quote
  else if s.hasUnterminatedKeyName then some .key
  else none

def pendingFault (s : TokenStream) : Option Fault :=
  s.unterminated.map fun
    | .quote => .unterminatedLiteral s.lastQuote
    | .key => .unterminatedKey s.lastKey

/-- The fault of a text that ends where something is still expected: that of the literal or key
segment in which it ends, or else its end. -/
def endFault (s : TokenStream) (expected : Expected) : Fault :=
  s.pendingFault.getD (.unexpectedEnd expected s.textLength)

def error (s : TokenStream) (fault : Fault) : QueryError :=
  ⟨s.text, s.context, fault⟩

def pendingError (s : TokenStream) : Option QueryError :=
  s.pendingFault.map s.error

theorem pendingFault_eq_none_iff {s : TokenStream} :
    s.pendingFault = none ↔ s.unterminated = none :=
  Option.map_eq_none_iff

@[simp] theorem unterminated_ofText (text : String) (context : QueryContext) :
    (ofText text context).unterminated = (Scan.of 0 text.toList).opened.map Prod.fst := by
  rw [unterminated, ofText, Scan.leavesOpen, Scan.leavesOpen]
  rcases (Scan.of 0 text.toList).opened with _ | ⟨_ | _, place⟩ <;> rfl

theorem opened_eq_none_iff {text : String} {context : QueryContext} :
    (ofText text context).unterminated = none ↔ (Scan.of 0 text.toList).opened = none := by
  rw [unterminated_ofText, Option.map_eq_none_iff]

end TokenStream

end RecordQuery
