import RecordQuery.Token.Lexeme

/-!
# Cutting a text into lexemes

`Scan.of` cuts a text into white space and lexemes from front to back and notes the place of every
lexeme. Scanning never fails. Where something is opened and not closed, everything behind it would
belong to it, so the scan ends there and records what was opened and where.
-/

namespace RecordQuery

structure Scan where
  lexemes : List (Nat × Lexeme)
  opened : Option (Opening × Nat)

namespace Scan

def empty : Scan := ⟨[], none⟩

def cons (position : Nat) (l : Lexeme) (s : Scan) : Scan :=
  ⟨(position, l) :: s.lexemes, s.opened⟩

def of (position : Nat) : List Char → Scan
  | [] => empty
  | c :: cs =>
    if Text.isWhiteSpace c then of (position + 1) cs
    else
      match _h : Lexeme.take c cs with
      | .error what => ⟨[], some (what, position)⟩
      | .ok (l, rest) => cons position l (of (position + l.width) rest)
termination_by cs => cs.length
decreasing_by
  · simp
  · exact Lexeme.length_lt_of_take _h

def tokens (s : Scan) : List Token :=
  s.lexemes.flatMap fun (position, l) => l.tokens position

def openings (s : Scan) : List (Opening × Nat) :=
  s.lexemes.filterMap (fun (position, l) => l.opening?.map fun what => (what, position)) ++
    s.opened.toList

def leavesOpen (s : Scan) (what : Opening) : Bool :=
  s.opened.any fun opening => opening.1 == what

/-- The last place at which something of a kind is opened; zero if there is none. -/
def lastOpening (s : Scan) (what : Opening) : Nat :=
  ((s.openings.filter fun opening => opening.1 == what).getLast?.map Prod.snd).getD 0

@[simp] theorem of_nil (position : Nat) : of position [] = empty := by
  rw [of]

theorem of_blank (position : Nat) {c : Char} (cs : List Char) (h : Text.isWhiteSpace c = true) :
    of position (c :: cs) = of (position + 1) cs := by
  rw [of, if_pos h]

theorem of_opened (position : Nat) {c : Char} {cs : List Char} {what : Opening}
    (hc : Text.isWhiteSpace c = false) (h : Lexeme.take c cs = .error what) :
    of position (c :: cs) = ⟨[], some (what, position)⟩ := by
  rw [of, if_neg (by simp [hc])]
  split
  · next heq =>
    rw [h] at heq
    injection heq with heq
    rw [heq]
  · next heq =>
    rw [h] at heq
    cases heq

theorem of_lexeme (position : Nat) {c : Char} {cs rest : List Char} {l : Lexeme}
    (hc : Text.isWhiteSpace c = false) (h : Lexeme.take c cs = .ok (l, rest)) :
    of position (c :: cs) = cons position l (of (position + l.width) rest) := by
  rw [of, if_neg (by simp [hc])]
  split
  · next heq =>
    rw [h] at heq
    cases heq
  · next heq =>
    rw [h] at heq
    cases heq
    rfl

@[simp] theorem tokens_empty : empty.tokens = [] := rfl

@[simp] theorem tokens_cons (position : Nat) (l : Lexeme) (s : Scan) :
    (cons position l s).tokens = l.tokens position ++ s.tokens := by
  simp [tokens, cons]

end Scan

end RecordQuery
