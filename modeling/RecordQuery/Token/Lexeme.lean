import RecordQuery.Token
import RecordQuery.Text.WhiteSpace
import RecordQuery.Text.Casing

/-!
# Lexemes

A text is cut into white space and lexemes. A lexeme is one of three things: a plain token that
stands in the text as it is; a quoted text, between apostrophes and with every apostrophe in it
doubled; or a key segment, a name between `["` and `"]`. `Lexeme.source` is how it stands in the
text, and `Lexeme.tokens` what the parsers see of it: a key segment gives three tokens.

`Lexeme.take` takes the lexeme at the front of a text. It fails only where a quoted text or a key
segment is opened and never closed. What it takes and what it leaves make up the text it was given
(`source_append_of_take`).
-/

namespace RecordQuery

inductive Opening where
  | quote
  | key
  deriving DecidableEq

inductive Lexeme where
  | plain (kind : TokenKind) (text : List Char)
  | quoted (content : List Char)
  | key (name : List Char)
  deriving DecidableEq

namespace Lexeme

def doubleQuotes : List Char → List Char
  | [] => []
  | c :: cs => if c = '\'' then '\'' :: '\'' :: doubleQuotes cs else c :: doubleQuotes cs

def source : Lexeme → List Char
  | .plain _ text => text
  | .quoted content => '\'' :: doubleQuotes content ++ ['\'']
  | .key name => '[' :: '"' :: name ++ ['"', ']']

def width (l : Lexeme) : Nat :=
  l.source.length

def tokens (position : Nat) : Lexeme → List Token
  | .plain kind text => [⟨kind, String.ofList text, position⟩]
  | .quoted content => [⟨.string, String.ofList content, position⟩]
  | .key name =>
    [⟨.openBracket, "[", position⟩, ⟨.string, String.ofList name, position + 2⟩,
      ⟨.closeBracket, "]", position + 3 + name.length⟩]

def opening? : Lexeme → Option Opening
  | .plain _ _ => none
  | .quoted _ => some .quote
  | .key _ => some .key

def isDelimiter (c : Char) : Bool :=
  Text.isWhiteSpace c || c == '\'' || c == '(' || c == ')' || c == ',' || c == '[' || c == ']' ||
    c == '=' || c == '<' || c == '>'

def keywords : List (String × TokenKind) :=
  [("and", .and), ("or", .or), ("not", .not), ("true", .boolean true), ("false", .boolean false),
    ("null", .null)] ++ Operator.all.map fun op => (op.keyword, .operator op)

/-- Whether a word is a number: an optional minus sign, digits, and optionally a point and
digits. -/
def isNumeral (cs : List Char) : Bool :=
  let unsigned := match cs with
    | '-' :: rest => rest
    | rest => rest
  !(unsigned.takeWhile Char.isDigit).isEmpty &&
    match unsigned.dropWhile Char.isDigit with
    | [] => true
    | '.' :: places => !places.isEmpty && places.all Char.isDigit
    | _ => false

/-- The kind of a word: a keyword in any case, a number, or a name. -/
def wordKind (word : List Char) : TokenKind :=
  match keywords.lookup (Text.lower (String.ofList word)) with
  | some kind => kind
  | none => if isNumeral word then .number else .identifier

/-- Splits off what still belongs to a word that has begun: it ends at a delimiter and ahead of the
operator `!=`. -/
def splitWord : List Char → List Char × List Char
  | [] => ([], [])
  | '!' :: '=' :: cs => ([], '!' :: '=' :: cs)
  | c :: cs =>
    if isDelimiter c then ([], c :: cs)
    else
      let (word, rest) := splitWord cs
      (c :: word, rest)

/-- Takes the rest of a quoted text and its closing apostrophe: the content and what follows. -/
def splitQuoted : List Char → Option (List Char × List Char)
  | [] => none
  | '\'' :: '\'' :: cs => (splitQuoted cs).map fun (content, rest) => ('\'' :: content, rest)
  | '\'' :: cs => some ([], cs)
  | c :: cs => (splitQuoted cs).map fun (content, rest) => (c :: content, rest)

/-- Takes the rest of a key name and the quote and bracket that close it: the name and what
follows. -/
def splitKey : List Char → Option (List Char × List Char)
  | [] => none
  | '"' :: ']' :: cs => some ([], cs)
  | c :: cs => (splitKey cs).map fun (name, rest) => (c :: name, rest)

def takeWord (c : Char) (cs : List Char) : Lexeme × List Char :=
  let (word, rest) := splitWord cs
  (.plain (wordKind (c :: word)) (c :: word), rest)

def take (c : Char) (cs : List Char) : Except Opening (Lexeme × List Char) :=
  match c, cs with
  | '\'', cs =>
    match splitQuoted cs with
    | some (content, rest) => .ok (.quoted content, rest)
    | none => .error .quote
  | '[', '"' :: cs =>
    match splitKey cs with
    | some (name, rest) => .ok (.key name, rest)
    | none => .error .key
  | '[', cs => .ok (.plain .openBracket ['['], cs)
  | ']', cs => .ok (.plain .closeBracket [']'], cs)
  | '(', cs => .ok (.plain .openParen ['('], cs)
  | ')', cs => .ok (.plain .closeParen [')'], cs)
  | ',', cs => .ok (.plain .comma [','], cs)
  | '=', '=' :: cs => .ok (.plain (.operator (.relation .equal)) ['=', '='], cs)
  | '=', cs => .ok (.plain (.operator (.relation .equal)) ['='], cs)
  | '!', '=' :: cs => .ok (.plain (.operator (.relation .notEqual)) ['!', '='], cs)
  | '<', '=' :: cs => .ok (.plain (.operator (.relation .lessOrEqual)) ['<', '='], cs)
  | '<', '>' :: cs => .ok (.plain (.operator (.relation .notEqual)) ['<', '>'], cs)
  | '<', cs => .ok (.plain (.operator (.relation .less)) ['<'], cs)
  | '>', '=' :: cs => .ok (.plain (.operator (.relation .greaterOrEqual)) ['>', '='], cs)
  | '>', cs => .ok (.plain (.operator (.relation .greater)) ['>'], cs)
  | c, cs => .ok (takeWord c cs)

theorem splitWord_append (cs : List Char) : (splitWord cs).1 ++ (splitWord cs).2 = cs := by
  fun_induction splitWord cs with
  | case1 => rfl
  | case2 => rfl
  | case3 => rfl
  | case4 c cs _ _ word rest h ih => simpa [h] using ih

theorem append_of_splitQuoted {cs content rest : List Char}
    (h : splitQuoted cs = some (content, rest)) : doubleQuotes content ++ '\'' :: rest = cs := by
  fun_induction splitQuoted cs generalizing content with
  | case1 => cases h
  | case2 cs ih =>
    obtain ⟨⟨c, r⟩, hc, he⟩ := Option.map_eq_some_iff.1 h
    cases he
    simp [doubleQuotes, ih hc]
  | case3 cs _ =>
    cases h
    simp [doubleQuotes]
  | case4 c cs _ hne ih =>
    obtain ⟨⟨d, r⟩, hd, he⟩ := Option.map_eq_some_iff.1 h
    cases he
    have : c ≠ '\'' := fun hc => hne hc
    simp [doubleQuotes, this, ih hd]

theorem append_of_splitKey {cs name rest : List Char} (h : splitKey cs = some (name, rest)) :
    name ++ '"' :: ']' :: rest = cs := by
  fun_induction splitKey cs generalizing name with
  | case1 => cases h
  | case2 cs =>
    cases h
    rfl
  | case3 c cs _ ih =>
    obtain ⟨⟨d, r⟩, hd, he⟩ := Option.map_eq_some_iff.1 h
    cases he
    simp [ih hd]

theorem source_append_takeWord (c : Char) (cs : List Char) :
    (takeWord c cs).1.source ++ (takeWord c cs).2 = c :: cs := by
  simp [takeWord, source, splitWord_append]

/-- A lexeme and what is left behind it are the text it was taken from. -/
theorem source_append_of_take {c : Char} {cs rest : List Char} {l : Lexeme}
    (h : take c cs = .ok (l, rest)) : l.source ++ rest = c :: cs := by
  unfold take at h
  split at h
  case h_1 =>
    split at h
    · next heq =>
      cases h
      simp [source, append_of_splitQuoted heq]
    · cases h
  case h_2 =>
    split at h
    · next heq =>
      cases h
      simp [source, append_of_splitKey heq]
    · cases h
  case h_16 =>
    injection h with h
    have := source_append_takeWord c cs
    rwa [h] at this
  all_goals
    cases h
    rfl

theorem source_ne_nil_of_take {c : Char} {cs rest : List Char} {l : Lexeme}
    (h : take c cs = .ok (l, rest)) : l.source ≠ [] := by
  unfold take at h
  split at h
  case h_16 =>
    cases h
    simp [source]
  all_goals
    first
      | (cases h; simp [source])
      | (split at h <;> cases h; simp [source])

/-- What is left behind a lexeme is shorter than the text it was taken from. -/
theorem length_lt_of_take {c : Char} {cs rest : List Char} {l : Lexeme}
    (h : take c cs = .ok (l, rest)) : rest.length < (c :: cs).length := by
  rw [← source_append_of_take h, List.length_append]
  have := List.length_pos_iff.2 (source_ne_nil_of_take h)
  omega

end Lexeme

end RecordQuery
