import RecordQuery.Json.Scanner

/-!
# Reading JSON documents

`Json.read` takes a text for a document and reports the first thing that is wrong with it. Arrays
and objects may nest 127 deep. Of several values for one key of an object the last one counts.
-/

namespace RecordQuery

namespace Json

def maxDepth : Nat := 127

def readValue : (room : Nat) → Reader Json
  | room, cs =>
    match skipBlanks cs with
    | [] => .error .truncated
    | 'n' :: cs => do
      let ((), cs) ← readExactly ['u', 'l', 'l'] cs
      .ok (.null, cs)
    | 't' :: cs => do
      let ((), cs) ← readExactly ['r', 'u', 'e'] cs
      .ok (.boolean true, cs)
    | 'f' :: cs => do
      let ((), cs) ← readExactly ['a', 'l', 's', 'e'] cs
      .ok (.boolean false, cs)
    | '"' :: cs => do
      let (s, cs) ← readString cs
      .ok (.string s, cs)
    | '-' :: cs => do
      let (n, cs) ← readNumber true cs
      .ok (.number n, cs)
    | '[' :: cs =>
      match room with
      | 0 => .error .malformed
      | room + 1 => do
        let (items, cs) ← readArray (readValue room) cs
        .ok (.array items, cs)
    | '{' :: cs =>
      match room with
      | 0 => .error .malformed
      | room + 1 => do
        let member (fields : List (String × Json)) (key : String) :
            Reader (List (String × Json)) := fun cs => do
          let cs ← readColon cs
          let (value, cs) ← readValue room cs
          .ok (insertField key value fields, cs)
        let (fields, cs) ← readObject member [] cs
        .ok (.object fields, cs)
    | c :: cs =>
      if c.isDigit then do
        let (n, cs) ← readNumber false (c :: cs)
        .ok (.number n, cs)
      else .error .malformed

def read (text : String) : Except JsonFlaw Json :=
  readWholeText (readValue maxDepth) text

end Json

end RecordQuery
