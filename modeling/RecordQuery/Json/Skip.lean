import RecordQuery.Json.Scanner

/-!
# Passing over JSON values

A value nobody asked for is passed over without being kept. The rules of the notation still hold,
but its limits do not: arrays and objects may nest to any depth, numbers may be of any size, and
the escapes of surrogates need not come in pairs. A number that is cut off by the end of the text
counts as malformed.

What is open is kept on a stack, so that depth costs nothing but memory.
-/

namespace RecordQuery

namespace Json

def skipCharacters : (fuel : Nat) → List Char → Except JsonFlaw (List Char)
  | 0, _ => .error .truncated
  | _ + 1, [] => .error .truncated
  | _ + 1, '"' :: cs => .ok cs
  | _ + 1, '\\' :: [] => .error .truncated
  | fuel + 1, '\\' :: 'u' :: cs => do
    let (_, cs) ← readHex cs
    skipCharacters fuel cs
  | fuel + 1, '\\' :: c :: cs =>
    if (escaped? c).isSome then skipCharacters fuel cs else .error .malformed
  | fuel + 1, c :: cs => if c.toNat < 0x20 then .error .malformed else skipCharacters fuel cs

def skipString (cs : List Char) : Except JsonFlaw (List Char) :=
  skipCharacters (cs.length + 1) cs

def skipNumber (cs : List Char) : Except JsonFlaw (List Char) :=
  let number : Except JsonFlaw (List Char) := do
    let (_, cs) ← readWhole cs
    let (_, cs) ← readPlaces cs
    let (_, cs) ← readExponent cs
    .ok cs
  match number with
  | .ok cs => .ok cs
  | .error _ => .error .malformed

inductive Frame where
  | array
  | object

def Frame.closing : Frame → Char
  | .array => ']'
  | .object => '}'

inductive SkipPoint where
  | value
  | opened
  | passed

/-- Passes over what comes before the value of an entry: in an object a key and a colon. -/
def skipKey (frame : Frame) (cs : List Char) : Except JsonFlaw (List Char) :=
  match frame with
  | .array => .ok cs
  | .object =>
    match skipBlanks cs with
    | [] => .error .truncated
    | '"' :: cs => do readColon (← skipString cs)
    | _ => .error .malformed

def skipFrom : (fuel : Nat) → SkipPoint → List Frame → List Char → Except JsonFlaw (List Char)
  | 0, _, _, _ => .error .truncated
  | _ + 1, .passed, [], cs => .ok cs
  | fuel + 1, .passed, frame :: frames, cs =>
    match skipBlanks cs with
    | [] => .error .truncated
    | c :: cs =>
      if c = ',' then do skipFrom fuel .value (frame :: frames) (← skipKey frame cs)
      else if c = frame.closing then skipFrom fuel .passed frames cs
      else .error .malformed
  | _ + 1, .opened, [], _ => .error .malformed
  | fuel + 1, .opened, frame :: frames, cs =>
    match skipBlanks cs with
    | [] => .error .truncated
    | c :: cs =>
      if c = frame.closing then skipFrom fuel .passed frames cs
      else do skipFrom fuel .value (frame :: frames) (← skipKey frame (c :: cs))
  | fuel + 1, .value, frames, cs =>
    match skipBlanks cs with
    | [] => .error .truncated
    | '[' :: cs => skipFrom fuel .opened (.array :: frames) cs
    | '{' :: cs => skipFrom fuel .opened (.object :: frames) cs
    | '"' :: cs => do skipFrom fuel .passed frames (← skipString cs)
    | '-' :: cs => do skipFrom fuel .passed frames (← skipNumber cs)
    | 'n' :: cs => do
      let ((), cs) ← readExactly ['u', 'l', 'l'] cs
      skipFrom fuel .passed frames cs
    | 't' :: cs => do
      let ((), cs) ← readExactly ['r', 'u', 'e'] cs
      skipFrom fuel .passed frames cs
    | 'f' :: cs => do
      let ((), cs) ← readExactly ['a', 'l', 's', 'e'] cs
      skipFrom fuel .passed frames cs
    | c :: cs =>
      if c.isDigit then do skipFrom fuel .passed frames (← skipNumber (c :: cs))
      else .error .malformed

/-- Passes over a value. Every second step at least takes a character. -/
def skipValue : Reader Unit := fun cs => do
  let cs ← skipFrom (2 * cs.length + 2) .value [] cs
  .ok ((), cs)

end Json

end RecordQuery
