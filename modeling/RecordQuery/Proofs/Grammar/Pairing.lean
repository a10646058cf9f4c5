import RecordQuery.Proofs.Grammar

/-!
# Pairs of parentheses

The parentheses of a text, those of groups and those of lists alike, are paired by nesting: a
closing one belongs to the last opening one that is not closed yet. `unpaired` goes through the
tokens and keeps those parentheses that have found no partner so far.

What the grammar derives is paired in itself, whatever stands around it
(`Grammar.DerivesSequence.isPaired`).
-/

namespace RecordQuery

structure Unpaired where
  /-- The opening ones, innermost first. -/
  openings : List Token := []
  /-- The closing ones, last first. -/
  closings : List Token := []

namespace Unpaired

def add (u : Unpaired) (token : Token) : Unpaired :=
  match token.kind, u.openings with
  | .openParen, openings => { u with openings := token :: openings }
  | .closeParen, [] => { u with closings := token :: u.closings }
  | .closeParen, _ :: openings => { u with openings := openings }
  | _, _ => u

def addAll (u : Unpaired) (tokens : List Token) : Unpaired :=
  tokens.foldl add u

@[simp] theorem addAll_nil (u : Unpaired) : u.addAll [] = u := rfl

@[simp] theorem addAll_cons (u : Unpaired) (token : Token) (tokens : List Token) :
    u.addAll (token :: tokens) = (u.add token).addAll tokens := rfl

theorem addAll_append (u : Unpaired) (first second : List Token) :
    u.addAll (first ++ second) = (u.addAll first).addAll second :=
  List.foldl_append

theorem add_opening (u : Unpaired) {token : Token} (h : token.kind = .openParen) :
    u.add token = { u with openings := token :: u.openings } := by
  simp [add, h]

theorem mem_closings_addAll {u : Unpaired} {closing : Token} (h : closing ∈ u.closings)
    (tokens : List Token) : closing ∈ (u.addAll tokens).closings := by
  induction tokens generalizing u with
  | nil => exact h
  | cons token tokens ih =>
      refine ih ?_
      rw [add]
      split
      · exact h
      · exact List.mem_cons_of_mem _ h
      · exact h
      · exact h

end Unpaired

/-- The parentheses that are left over when those among all tokens of a text are paired. -/
def unpaired (tokens : List Token) : Unpaired :=
  Unpaired.addAll {} tokens

def IsPaired (tokens : List Token) : Prop :=
  ∀ u : Unpaired, u.addAll tokens = u

theorem isPaired_nil : IsPaired [] := fun _ => rfl

theorem IsPaired.append {first second : List Token} (h : IsPaired first) (h' : IsPaired second) :
    IsPaired (first ++ second) := by
  intro u
  rw [Unpaired.addAll_append, h u, h' u]

theorem IsPaired.cons {token : Token} {tokens : List Token} {kind : TokenKind}
    (htoken : token.kind = kind) (hkind : kind ≠ .openParen ∧ kind ≠ .closeParen)
    (h : IsPaired tokens) : IsPaired (token :: tokens) := by
  subst htoken
  intro u
  have hother : u.add token = u := by
    rw [Unpaired.add]
    split
    · next hopen => exact absurd hopen hkind.1
    · next hclose _ => exact absurd hclose hkind.2
    · next hclose _ => exact absurd hclose hkind.2
    · rfl
  rw [Unpaired.addAll_cons, hother, h u]

theorem IsPaired.enclose {opening closing : Token} {tokens : List Token}
    (hopening : opening.kind = .openParen) (h : IsPaired tokens)
    (hclosing : closing.kind = .closeParen) : IsPaired (opening :: (tokens ++ [closing])) := by
  intro u
  rw [Unpaired.addAll_cons, u.add_opening hopening, Unpaired.addAll_append, h]
  simp [Unpaired.add, hclosing]

/-- The last group that is opened and not closed is the innermost one. -/
theorem head?_openings_of_isPaired {ahead tokens : List Token} {opening : Token}
    (hopening : opening.kind = .openParen) (h : IsPaired tokens) :
    (unpaired (ahead ++ opening :: tokens)).openings.head? = some opening := by
  rw [unpaired, Unpaired.addAll_append, Unpaired.addAll_cons, Unpaired.add_opening _ hopening, h]
  rfl

/-- Behind tokens that are paired there is nothing that a parenthesis could close. -/
theorem mem_closings_of_isPaired {tokens rest : List Token} {closing : Token} (h : IsPaired tokens)
    (hclosing : closing.kind = .closeParen) :
    closing ∈ (unpaired (tokens ++ closing :: rest)).closings := by
  rw [unpaired, Unpaired.addAll_append, h]
  refine Unpaired.mem_closings_addAll ?_ rest
  simp [Unpaired.add, hclosing]

namespace Grammar

variable {catalog : Catalog} {now : Timestamp} {column : Column}

theorem Operand.isPaired_cons {token : Token} {v : Value} {tokens : List Token}
    (h : Operand now column token v) (htokens : IsPaired tokens) : IsPaired (token :: tokens) := by
  have hliteral := h.isLiteral
  rw [Token.isLiteral] at hliteral
  refine .cons rfl ⟨fun hkind => ?_, fun hkind => ?_⟩ htokens <;>
  · rw [hkind] at hliteral
    cases hliteral

theorem DerivesNegation.isPaired {tokens : List Token} {negated : Bool}
    (h : DerivesNegation tokens negated) : IsPaired tokens := by
  cases h with
  | absent => exact isPaired_nil
  | present not => exact isPaired_nil.cons not (by simp)

theorem DerivesKeys.isPaired {tokens : List Token} {keys : List String}
    (h : DerivesKeys column tokens keys) : IsPaired tokens := by
  induction h with
  | nil => exact isPaired_nil
  | cons _ opening name closing _ ih =>
      exact ((ih.cons closing (by simp)).cons name (by simp)).cons opening (by simp)

theorem DerivesValues.isPaired {tokens : List Token} {vs : List Value}
    (h : DerivesValues now column tokens vs) : IsPaired tokens := by
  induction h with
  | last operand => exact operand.isPaired_cons isPaired_nil
  | cons operand comma _ ih => exact operand.isPaired_cons (ih.cons comma (by simp))

theorem DerivesTest.isPaired {tokens : List Token} {test : Test}
    (h : DerivesTest now column tokens test) : IsPaired tokens := by
  cases h with
  | relation operator operand | text operator _ operand =>
      exact (operand.isPaired_cons isPaired_nil).cons operator (by simp)
  | isNull operator null =>
      exact (isPaired_nil.cons null (by simp)).cons operator (by simp)
  | isNotNull operator not null =>
      have hnull := isPaired_nil.cons null (by simp)
      exact (hnull.cons not (by simp)).cons operator (by simp)
  | between operator lower and upper =>
      have hupper := (upper.isPaired_cons isPaired_nil).cons and (by simp)
      exact (lower.isPaired_cons hupper).cons operator (by simp)
  | oneOf operator opening values closing =>
      exact (IsPaired.enclose opening values.isPaired closing).cons operator (by simp)

theorem isPaired_cons_joiner {joiner : Token} {conjunction : Conjunction} {tokens : List Token}
    (h : joiner.kind = conjunction.tokenKind) (htokens : IsPaired tokens) :
    IsPaired (joiner :: tokens) := by
  cases conjunction with
  | and | or => exact htokens.cons h (by simp [Conjunction.tokenKind])

mutual

theorem DerivesClause.isPaired {depth : Nat} {tokens : List Token} {clause : Clause} :
    DerivesClause catalog now depth tokens clause → IsPaired tokens
  | .leaf negation name _ keys test =>
      negation.isPaired.append ((keys.isPaired.append test.isPaired).cons name (by simp))
  | .single negation opening sequence closing | .group negation opening sequence _ closing =>
      negation.isPaired.append (.enclose opening sequence.isPaired closing)

theorem DerivesSequence.isPaired {depth : Nat} {tokens : List Token} {clauses : List Clause} :
    DerivesSequence catalog now depth tokens clauses → IsPaired tokens
  | .last clause => clause.isPaired
  | .join clause joiner others =>
      clause.isPaired.append (isPaired_cons_joiner joiner others.isPaired)

end

end Grammar

end RecordQuery
