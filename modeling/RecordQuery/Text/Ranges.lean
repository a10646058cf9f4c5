/-!
# Ranges of characters

A class of characters is given as a list of inclusive ranges of code points, as the tables of the
Unicode character database are.
-/

namespace RecordQuery

namespace Text

def inRanges (ranges : List (Nat × Nat)) (c : Char) : Bool :=
  ranges.any fun range => range.1 ≤ c.toNat && c.toNat ≤ range.2

end Text

end RecordQuery
