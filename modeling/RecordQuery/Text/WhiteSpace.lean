import RecordQuery.Text.Ranges

/-!
# White space

The characters with the Unicode property `White_Space`, and what it means to cut them from the
ends of a text. Separators in a query, blank names and the edges of a date are all judged by this
one class.
-/

namespace RecordQuery

namespace Text

def whiteSpaceRanges : List (Nat × Nat) :=
  [(0x9, 0xD), (0x20, 0x20), (0x85, 0x85), (0xA0, 0xA0), (0x1680, 0x1680), (0x2000, 0x200A),
    (0x2028, 0x2029), (0x202F, 0x202F), (0x205F, 0x205F), (0x3000, 0x3000)]

def isWhiteSpace (c : Char) : Bool :=
  inRanges whiteSpaceRanges c

def trimStart (cs : List Char) : List Char :=
  cs.dropWhile isWhiteSpace

def trim (cs : List Char) : List Char :=
  (trimStart (trimStart cs).reverse).reverse

def isBlank (s : String) : Bool :=
  s.toList.all isWhiteSpace

@[simp] theorem trimStart_nil : trimStart [] = [] := rfl

theorem trimStart_cons (c : Char) (cs : List Char) :
    trimStart (c :: cs) = if isWhiteSpace c then trimStart cs else c :: cs := by
  cases h : isWhiteSpace c <;> simp [trimStart, List.dropWhile, h]

end Text

end RecordQuery
