import RecordQuery.Json.Basic
import RecordQuery.Number.Integer
import RecordQuery.Number.Binary64.Shortest

/-!
# Writing JSON documents

The compact form: no blanks, the fields of an object in the order of their keys, and in strings an
escape only for quotes, backslashes and control characters.

A double is written with the fewest digits that read back as it. From 1e-5 up to 1e16 the notation
is positional, with `.0` behind a whole number; beyond that one digit stands before the point and
the exponent has a sign.
-/

namespace RecordQuery

namespace Json

def hexDigit (n : Nat) : Char :=
  if n < 10 then Char.ofNat ('0'.toNat + n) else Char.ofNat ('a'.toNat + (n - 10))

def writeChar (c : Char) : List Char :=
  match c with
  | '"' => ['\\', '"']
  | '\\' => ['\\', '\\']
  | '\x08' => ['\\', 'b']
  | '\x0c' => ['\\', 'f']
  | '\n' => ['\\', 'n']
  | '\r' => ['\\', 'r']
  | '\t' => ['\\', 't']
  | c =>
    if c.toNat < 0x20 then
      ['\\', 'u', '0', '0', hexDigit (c.toNat / 16), hexDigit (c.toNat % 16)]
    else [c]

def writeString (s : String) : String :=
  String.ofList ('"' :: s.toList.flatMap writeChar ++ ['"'])

/-- The magnitudes written positionally, by the place of the decimal point before the first digit:
above ten to the first power and up to ten to the second. -/
def positionalPoints : Int × Int := (-5, 16)

/-- A number with the given digits and the decimal point behind the first `point` of them. -/
def writePositional (digits : List Char) (point : Int) : List Char :=
  if point ≤ 0 then '0' :: '.' :: List.replicate (-point).toNat '0' ++ digits
  else if point < digits.length then digits.take point.toNat ++ '.' :: digits.drop point.toNat
  else digits ++ List.replicate (point.toNat - digits.length) '0' ++ ['.', '0']

def writeExponential (digits : List Char) (point : Int) : List Char :=
  let fraction := if digits.length ≤ 1 then [] else '.' :: digits.drop 1
  digits.take 1 ++ fraction ++ 'e' :: (if point - 1 < 0 then '-' else '+') ::
    Number.writeNatural (point - 1).natAbs

def writeFloat (x : Number.Binary64) : List Char :=
  let unsigned :=
    if x.isZero then ['0', '.', '0']
    else
      let shortest := x.shortest
      let digits := Number.writeNatural shortest.coefficient
      let point : Int := digits.length + shortest.exponent
      if positionalPoints.1 < point && point ≤ positionalPoints.2 then writePositional digits point
      else writeExponential digits point
  if x.negative then '-' :: unsigned else unsigned

def writeNumber : JsonNumber → List Char
  | .integer n => Number.writeInteger n
  | .float x => writeFloat x

def commaSeparated (texts : List String) : String :=
  ",".intercalate texts

mutual

def write : Json → String
  | .null => "null"
  | .boolean true => "true"
  | .boolean false => "false"
  | .number n => String.ofList (writeNumber n)
  | .string s => writeString s
  | .array items => "[" ++ commaSeparated (writeItems items) ++ "]"
  | .object fields => "\x7b" ++ commaSeparated (writeFields fields) ++ "\x7d"

def writeItems : List Json → List String
  | [] => []
  | item :: items => item.write :: writeItems items

def writeFields : List (String × Json) → List String
  | [] => []
  | (key, value) :: fields => (writeString key ++ ":" ++ value.write) :: writeFields fields

end

def lineBreak (depth : Nat) : String :=
  String.ofList ('\n' :: List.replicate (2 * depth) ' ')

def writeLines (opening closing : String) (depth : Nat) (entries : List String) : String :=
  if entries.isEmpty then opening ++ closing
  else
    opening ++ lineBreak (depth + 1) ++ ("," ++ lineBreak (depth + 1)).intercalate entries ++
      lineBreak depth ++ closing

mutual

/-- A document with every element and field on a line of its own, two blanks deeper than what it
belongs to. -/
def writeIndented (depth : Nat) : Json → String
  | .array items => writeLines "[" "]" depth (writeIndentedItems (depth + 1) items)
  | .object fields => writeLines "\x7b" "\x7d" depth (writeIndentedFields (depth + 1) fields)
  | .null => write .null
  | .boolean b => write (.boolean b)
  | .number n => write (.number n)
  | .string s => write (.string s)

def writeIndentedItems (depth : Nat) : List Json → List String
  | [] => []
  | item :: items => writeIndented depth item :: writeIndentedItems depth items

def writeIndentedFields (depth : Nat) : List (String × Json) → List String
  | [] => []
  | (key, value) :: fields =>
    (writeString key ++ ": " ++ writeIndented depth value) :: writeIndentedFields depth fields

end

end Json

end RecordQuery
