import RecordQuery.Json.Basic
import RecordQuery.Number.Binary64.Reader

/-!
# Pieces of JSON text

Readers for the parts of a document: words, strings, numbers, and the punctuation of arrays and
objects. Each takes its part from the front of the text and returns it with the rest, or says what
is wrong at the first character where something is. An opening character that decided which reader
to call has been taken already.
-/

namespace RecordQuery

namespace Json

abbrev Reader (α : Type) := List Char → Except JsonFlaw (α × List Char)

def isBlank (c : Char) : Bool :=
  c == ' ' || c == '\n' || c == '\t' || c == '\r'

def skipBlanks (cs : List Char) : List Char :=
  cs.dropWhile isBlank

def readExactly : List Char → Reader Unit
  | [], cs => .ok ((), cs)
  | _ :: _, [] => .error .truncated
  | e :: es, c :: cs => if c = e then readExactly es cs else .error .malformed

def hexValue? (c : Char) : Option Nat :=
  if c.isDigit then some (c.toNat - '0'.toNat)
  else if 'a' ≤ c && c ≤ 'f' then some (c.toNat - 'a'.toNat + 10)
  else if 'A' ≤ c && c ≤ 'F' then some (c.toNat - 'A'.toNat + 10)
  else none

def shorterThan (n : Nat) : List Char → Bool
  | [] => 0 < n
  | c :: cs => if n ≤ c.utf8Size then false else shorterThan (n - c.utf8Size) cs

/-- Reads four hexadecimal digits. The text counts as ended if four bytes are not left. -/
def readHex (cs : List Char) : Except JsonFlaw (Nat × List Char) :=
  if shorterThan 4 cs then .error .truncated
  else
    match cs with
    | a :: b :: c :: d :: rest =>
      match hexValue? a, hexValue? b, hexValue? c, hexValue? d with
      | some a, some b, some c, some d => .ok (4096 * a + 256 * b + 16 * c + d, rest)
      | _, _, _, _ => .error .malformed
    | _ => .error .malformed

/-- Reads the digits of a numeric escape, and with a leading surrogate the escape of the trailing
one that has to follow it. -/
def readCodePoint : Reader Char := fun cs => do
  let (unit, cs) ← readHex cs
  if 0xDC00 ≤ unit && unit ≤ 0xDFFF then .error .malformed
  else if unit < 0xD800 || 0xDBFF < unit then .ok (Char.ofNat unit, cs)
  else do
    let ((), cs) ← readExactly ['\\', 'u'] cs
    let (trail, cs) ← readHex cs
    if 0xDC00 ≤ trail && trail ≤ 0xDFFF then
      .ok (Char.ofNat (0x10000 + (unit - 0xD800) * 0x400 + (trail - 0xDC00)), cs)
    else .error .malformed

def escaped? : Char → Option Char
  | '"' => some '"'
  | '\\' => some '\\'
  | '/' => some '/'
  | 'b' => some '\x08'
  | 'f' => some '\x0c'
  | 'n' => some '\n'
  | 'r' => some '\r'
  | 't' => some '\t'
  | _ => none

def readEscape : Reader Char
  | [] => .error .truncated
  | 'u' :: cs => readCodePoint cs
  | c :: cs =>
    match escaped? c with
    | some e => .ok (e, cs)
    | none => .error .malformed

/-- Reads characters up to the closing quote, at most `fuel` of them, after those in `taken`. -/
def readCharacters : (fuel : Nat) → (taken : List Char) → Reader String
  | 0, _, _ => .error .truncated
  | _ + 1, _, [] => .error .truncated
  | _ + 1, taken, '"' :: cs => .ok (String.ofList taken.reverse, cs)
  | fuel + 1, taken, '\\' :: cs => do
    let (c, cs) ← readEscape cs
    readCharacters fuel (c :: taken) cs
  | fuel + 1, taken, c :: cs =>
    if c.toNat < 0x20 then .error .malformed else readCharacters fuel (c :: taken) cs

def readString : Reader String := fun cs =>
  readCharacters (cs.length + 1) [] cs

def readDigits : Reader (List Char)
  | [] => .error .truncated
  | c :: cs =>
    if c.isDigit then .ok ((c :: cs).takeWhile Char.isDigit, (c :: cs).dropWhile Char.isDigit)
    else .error .malformed

/-- Takes the digits before the point: a zero, or digits that do not begin with one. -/
def readWhole : Reader (List Char) := fun cs => do
  let (digits, rest) ← readDigits cs
  if digits.head? == some '0' && digits.length != 1 then .error .malformed else .ok (digits, rest)

def readPlaces : Reader (Option (List Char))
  | '.' :: cs => do
    let (digits, rest) ← readDigits cs
    .ok (some digits, rest)
  | cs => .ok (none, cs)

def readExponent : Reader (Option Int)
  | [] => .ok (none, [])
  | c :: cs =>
    if c = 'e' || c = 'E' then do
      let (sign, cs) : Int × List Char := match cs with
        | '+' :: cs => (1, cs)
        | '-' :: cs => (-1, cs)
        | cs => (1, cs)
      let (digits, rest) ← readDigits cs
      .ok (some (sign * (Number.digitsValue digits : Nat)), rest)
    else .ok (none, c :: cs)

/-- An integer that a machine word holds; zero is an integer only without a sign. -/
def wordInteger? (negative : Bool) (magnitude : Nat) : Option Int :=
  if negative then
    if 0 < magnitude && magnitude ≤ 9223372036854775808 then some (-magnitude) else none
  else if Number.fitsUInt64 magnitude then some magnitude
  else none

/-- Reads a number whose sign has been taken. A number with a point or an exponent is a double, and
so is an integer that no machine word holds. -/
def readNumber (negative : Bool) : Reader JsonNumber := fun cs => do
  let (whole, cs) ← readWhole cs
  let (places, cs) ← readPlaces cs
  let (exponent, cs) ← readExponent cs
  let word :=
    if places.isNone && exponent.isNone then wordInteger? negative (Number.digitsValue whole)
    else none
  match word with
  | some n => .ok (.integer n, cs)
  | none =>
    match Number.Binary64.ofDigits? negative whole (places.getD []) (exponent.getD 0) with
    | some x => .ok (.float x, cs)
    | none => .error .malformed

/-- Moves to the next element of an array, if there is one; `first` says that none has been read.
The text that is left starts with the element. -/
def nextElement (first : Bool) (cs : List Char) : Except JsonFlaw (Option (List Char)) :=
  match skipBlanks cs with
  | [] => .error .truncated
  | ']' :: _ => .ok none
  | c :: cs =>
    if first then .ok (some (c :: cs))
    else if c = ',' then
      match skipBlanks cs with
      | [] => .error .truncated
      | ']' :: _ => .error .malformed
      | cs => .ok (some cs)
    else .error .malformed

def endArray (cs : List Char) : Except JsonFlaw (List Char) :=
  match skipBlanks cs with
  | [] => .error .truncated
  | ']' :: cs => .ok cs
  | _ => .error .malformed

def readKey (cs : List Char) : Except JsonFlaw (String × List Char) :=
  match cs with
  | [] => .error .truncated
  | '"' :: cs => readString cs
  | _ => .error .malformed

/-- Reads the next key of an object, if there is one; `first` says that none has been read. -/
def nextKey (first : Bool) (cs : List Char) : Except JsonFlaw (Option (String × List Char)) :=
  match skipBlanks cs with
  | [] => .error .truncated
  | '}' :: _ => .ok none
  | c :: cs =>
    if first then (readKey (c :: cs)).map some
    else if c = ',' then (readKey (skipBlanks cs)).map some
    else .error .malformed

def endObject (cs : List Char) : Except JsonFlaw (List Char) :=
  match skipBlanks cs with
  | [] => .error .truncated
  | '}' :: cs => .ok cs
  | _ => .error .malformed

def readColon (cs : List Char) : Except JsonFlaw (List Char) :=
  match skipBlanks cs with
  | [] => .error .truncated
  | ':' :: cs => .ok cs
  | _ => .error .malformed

/-- Reads elements with `item` to the end of an array, at most `fuel` of them, after those in
`taken`. -/
def readElements {α : Type} (item : Reader α) : (fuel : Nat) → (taken : List α) → Reader (List α)
  | 0, _, _ => .error .truncated
  | fuel + 1, taken, cs => do
    match ← nextElement taken.isEmpty cs with
    | none => do
      let cs ← endArray cs
      .ok (taken.reverse, cs)
    | some cs => do
      let (x, cs) ← item cs
      readElements item fuel (x :: taken) cs

def readArray {α : Type} (item : Reader α) : Reader (List α) := fun cs =>
  readElements item (cs.length + 1) [] cs

/-- Reads members to the end of an object, at most `fuel` of them. `member` is given what has been
read so far and the key, and reads the colon and the value. -/
def readMembers {σ : Type} (member : σ → String → Reader σ) :
    (fuel : Nat) → (first : Bool) → σ → Reader σ
  | 0, _, _, _ => .error .truncated
  | fuel + 1, first, s, cs => do
    match ← nextKey first cs with
    | none => do
      let cs ← endObject cs
      .ok (s, cs)
    | some (key, cs) => do
      let (s, cs) ← member s key cs
      readMembers member fuel false s cs

def readObject {σ : Type} (member : σ → String → Reader σ) (s : σ) : Reader σ := fun cs =>
  readMembers member (cs.length + 1) true s cs

def readWholeText {α : Type} (item : Reader α) (text : String) : Except JsonFlaw α := do
  let (x, cs) ← item text.toList
  if (skipBlanks cs).isEmpty then .ok x else .error .malformed

end Json

end RecordQuery
