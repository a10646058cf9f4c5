import RecordQuery.Token

/-!
# Which tokens are operands

A literal is an operand of a query where a value is asked for: behind a relation or a text test, as
one of the bounds of a range, or in a list. The tokens ahead of it tell whether that is so, and no
more than the last three of them are needed: `Slot` is what they say about the next token, and
`operands` goes through the tokens of a query with it. Names and null tests are literals that stand
elsewhere.
-/

namespace RecordQuery

inductive Slot where
  | other
  | operand
  | bound
  | conjunction
  | list
  | sortKey
  deriving DecidableEq

namespace Slot

def asksForValue : Slot → Bool
  | .operand | .bound => true
  | _ => false

def next : Slot → TokenKind → Slot
  | .bound, _ => .conjunction
  | .conjunction, .and => .operand
  | .list, .openParen => .operand
  | .other, .operator (.relation _) => .operand
  | .other, .operator (.text _) => .operand
  | .other, .operator .between => .bound
  | .other, .operator .oneOf => .list
  | .other, .comma => .operand
  | .sortKey, _ => .sortKey
  | _, _ => .other

def after (s : Slot) : List Token → Slot
  | [] => s
  | token :: tokens => (s.next token.kind).after tokens

def operands (s : Slot) : List Token → List Token
  | [] => []
  | token :: tokens =>
    if s.asksForValue && token.isLiteral then token :: (s.next token.kind).operands tokens
    else (s.next token.kind).operands tokens

@[simp] theorem after_nil (s : Slot) : s.after [] = s := rfl

@[simp] theorem operands_nil (s : Slot) : s.operands [] = [] := rfl

theorem after_append (s : Slot) (first second : List Token) :
    s.after (first ++ second) = (s.after first).after second := by
  induction first generalizing s with
  | nil => rfl
  | cons token first ih => exact ih (s.next token.kind)

theorem operands_append (s : Slot) (first second : List Token) :
    s.operands (first ++ second) = s.operands first ++ (s.after first).operands second := by
  induction first generalizing s with
  | nil => rfl
  | cons token first ih =>
      rw [List.cons_append, operands, operands, after, ih]
      split
      · rw [List.cons_append]
      · rfl

theorem operands_cons_of_not {s : Slot} (hs : s.asksForValue = false) (token : Token)
    (tokens : List Token) :
    s.operands (token :: tokens) = (s.next token.kind).operands tokens := by
  rw [operands, hs, Bool.false_and, if_neg Bool.false_ne_true]

theorem operands_cons_of_isLiteral {s : Slot} (hs : s.asksForValue = true) {token : Token}
    (htoken : token.isLiteral = true) (tokens : List Token) :
    s.operands (token :: tokens) = token :: (s.next token.kind).operands tokens := by
  rw [operands, hs, htoken, Bool.true_and, if_pos rfl]

theorem operands_sublist (s : Slot) (tokens : List Token) :
    (s.operands tokens).Sublist tokens := by
  induction tokens generalizing s with
  | nil => exact .slnil
  | cons token tokens ih =>
      rw [operands]
      split
      · exact (ih _).cons_cons token
      · exact (ih _).cons token

theorem getElem?_operands_append {s : Slot} {first : List Token} {i : Nat} {operand : Token}
    (h : (s.operands first)[i]? = some operand) (second : List Token) :
    (s.operands (first ++ second))[i]? = some operand := by
  have hi : i < (s.operands first).length := (List.getElem?_eq_some_iff.1 h).1
  rw [operands_append, List.getElem?_append_left hi, h]

/-- The operands ahead of some place are those of the tokens ahead of it. -/
theorem getElem?_operands_of_append {s : Slot} {first second : List Token}
    (hplaces : (first ++ second).Pairwise (·.position < ·.position)) {token : Token}
    (htoken : token ∈ first) {i : Nat} {operand : Token}
    (h : (s.operands (first ++ second))[i]? = some operand)
    (hposition : operand.position ≤ token.position) :
    (s.operands first)[i]? = some operand := by
  rw [operands_append] at h
  by_cases hi : i < (s.operands first).length
  · rwa [List.getElem?_append_left hi] at h
  · rw [List.getElem?_append_right (by omega)] at h
    have hmem := ((s.after first).operands_sublist second).mem (List.mem_of_getElem? h)
    have hbehind := (List.pairwise_append.1 hplaces).2.2 token htoken operand hmem
    omega

end Slot

def operands (tokens : List Token) : List Token :=
  Slot.other.operands tokens

end RecordQuery
