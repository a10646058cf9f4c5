import RecordQuery.Text.Casing.Lowercase
import RecordQuery.Text.Casing.Classes

/-!
# Lower case

The full lower-case form of a text. Every character is mapped on its own, with two exceptions:

* U+0130, the capital dotted i, becomes two characters, a small i and a combining dot above;
* the capital sigma becomes the final small sigma at the end of a word and the other small sigma
  elsewhere. It ends a word if, looking past characters that words may contain without ending,
  a cased letter comes before it and none comes after it.

The text already passed is carried along in reverse, so the two directions of that test are the
same function.
-/

namespace RecordQuery

namespace Text

/-- The lower-case form of a character that has a single one, in the middle of a word. -/
def lowerChar (c : Char) : Char :=
  if c.toNat < 0x80 then c.toLower
  else
    match lowerRuns.find? fun (first, last, step, _) =>
        first ≤ c.toNat && c.toNat ≤ last && (c.toNat - first) % step == 0 with
    | some (first, _, _, target) => Char.ofNat (target + (c.toNat - first))
    | none => c

def capitalSigma : Char := '\u03A3'

def finalSigma : Char := '\u03C2'

def capitalDottedI : Char := '\u0130'

def reachesCased (cs : List Char) : Bool :=
  match cs.dropWhile isCaseIgnorable with
  | [] => false
  | c :: _ => isCased c

/-- The lower-case form of `c` with `before`, in reverse, ahead of it and `after` behind it. -/
def lowerAt (before : List Char) (c : Char) (after : List Char) : List Char :=
  if c = capitalSigma then
    if reachesCased before && !reachesCased after then [finalSigma] else [lowerChar c]
  else if c = capitalDottedI then ['i', '\u0307']
  else [lowerChar c]

def lowerFrom (before : List Char) : List Char → List Char
  | [] => []
  | c :: cs => lowerAt before c cs ++ lowerFrom (c :: before) cs

def lowerChars (cs : List Char) : List Char :=
  lowerFrom [] cs

def lower (s : String) : String :=
  String.ofList (lowerChars s.toList)

@[simp] theorem lowerFrom_nil (before : List Char) : lowerFrom before [] = [] := rfl

theorem lowerFrom_cons (before : List Char) (c : Char) (cs : List Char) :
    lowerFrom before (c :: cs) = lowerAt before c cs ++ lowerFrom (c :: before) cs := rfl

@[simp] theorem toList_lower (s : String) : (lower s).toList = lowerChars s.toList := by
  simp [lower]

end Text

end RecordQuery
