import RecordQuery.Proofs.Grammar

/-!
# How deep groups are nested

The depth that a derivation carries can be read off the tokens by counting parentheses
(`DerivesSequence.nesting_eq`), except those of the lists of `in` tests, which are no groups.
-/

namespace RecordQuery

namespace Grammar

/-- How deep groups are nested in tokens ahead of which `opened` groups are open. `listed` says that
an `in` test has begun, so that the next closing parenthesis belongs to its list. -/
def nestingFrom (opened : Nat) (listed : Bool) : List Token → Nat
  | [] => opened
  | token :: tokens =>
    match listed, token.kind with
    | false, .operator .oneOf => nestingFrom opened true tokens
    | false, .openParen => nestingFrom (opened + 1) false tokens
    | false, .closeParen => max opened (nestingFrom (opened - 1) false tokens)
    | true, .closeParen => nestingFrom opened false tokens
    | listed, _ => nestingFrom opened listed tokens

def nesting (tokens : List Token) : Nat :=
  nestingFrom 0 false tokens

variable {catalog : Catalog} {now : Timestamp} {column : Column} {opened : Nat}

theorem le_nestingFrom (listed : Bool) (tokens : List Token) :
    opened ≤ nestingFrom opened listed tokens := by
  fun_induction nestingFrom opened listed tokens with
  | case1 opened listed => exact Nat.le_refl opened
  | case2 opened token tokens hkind ih => exact ih
  | case3 opened token tokens hkind ih => exact Nat.le_of_succ_le ih
  | case4 opened token tokens hkind ih => exact Nat.le_max_left _ _
  | case5 opened token tokens hkind ih => exact ih
  | case6 opened listed token tokens _ _ _ _ ih => exact ih

theorem nestingFrom_cons {token : Token} (hlist : token.kind ≠ .operator .oneOf)
    (hopen : token.kind ≠ .openParen) (hclose : token.kind ≠ .closeParen) (listed : Bool)
    (tokens : List Token) :
    nestingFrom opened listed (token :: tokens) = nestingFrom opened listed tokens := by
  rw [nestingFrom]
  · exact fun _ h => hlist h
  · exact fun _ h => hopen h
  · exact fun _ h => hclose h
  · exact fun _ h => hclose h

theorem nestingFrom_literal {token : Token} (h : token.isLiteral = true) (listed : Bool)
    (tokens : List Token) :
    nestingFrom opened listed (token :: tokens) = nestingFrom opened listed tokens := by
  apply nestingFrom_cons <;>
    (intro hkind; simp [Token.isLiteral, hkind, TokenKind.isLiteral] at h)

theorem DerivesNegation.nestingFrom_append {tokens : List Token} {negated : Bool}
    (h : DerivesNegation tokens negated) (rest : List Token) :
    nestingFrom opened false (tokens ++ rest) = nestingFrom opened false rest := by
  cases h with
  | absent => rfl
  | present not => exact nestingFrom_cons (by simp [not]) (by simp [not]) (by simp [not]) _ _

theorem DerivesKeys.nestingFrom_append {tokens : List Token} {keys : List String}
    (h : DerivesKeys column tokens keys) (rest : List Token) :
    nestingFrom opened false (tokens ++ rest) = nestingFrom opened false rest := by
  induction h with
  | nil => rfl
  | cons _ opening name closing _ ih => simp [nestingFrom, opening, name, closing, ih]

theorem DerivesValues.nestingFrom_append {tokens : List Token} {vs : List Value}
    (h : DerivesValues now column tokens vs) (rest : List Token) :
    nestingFrom opened true (tokens ++ rest) = nestingFrom opened true rest := by
  induction h with
  | last operand => exact nestingFrom_literal operand.isLiteral true rest
  | cons operand comma _ ih =>
      rw [List.cons_append, nestingFrom_literal operand.isLiteral, List.cons_append,
        nestingFrom_cons (by simp [comma]) (by simp [comma]) (by simp [comma]), ih]

theorem DerivesTest.nestingFrom_append {tokens : List Token} {test : Test}
    (h : DerivesTest now column tokens test) (rest : List Token) :
    nestingFrom opened false (tokens ++ rest) = nestingFrom opened false rest := by
  cases h with
  | relation operator operand | text operator _ operand =>
      rw [List.cons_append, nestingFrom_cons (by simp [operator]) (by simp [operator])
        (by simp [operator])]
      exact nestingFrom_literal operand.isLiteral false rest
  | isNull operator null => simp [nestingFrom, operator, null]
  | isNotNull operator not null => simp [nestingFrom, operator, not, null]
  | between operator lower and upper =>
      rw [List.cons_append, nestingFrom_cons (by simp [operator]) (by simp [operator])
        (by simp [operator]), List.cons_append, nestingFrom_literal lower.isLiteral,
        List.cons_append, nestingFrom_cons (by simp [and]) (by simp [and]) (by simp [and])]
      exact nestingFrom_literal upper.isLiteral false rest
  | oneOf operator opening values closing =>
      simp [nestingFrom, operator, opening, closing, values.nestingFrom_append]

theorem nestingFrom_joiner {joiner : Token} {conjunction : Conjunction}
    (h : joiner.kind = conjunction.tokenKind) (tokens : List Token) :
    nestingFrom opened false (joiner :: tokens) = nestingFrom opened false tokens := by
  cases conjunction <;>
    exact nestingFrom_cons (by simp [h, Conjunction.tokenKind])
      (by simp [h, Conjunction.tokenKind]) (by simp [h, Conjunction.tokenKind]) _ _

theorem nestingFrom_group {opening closing : Token} {tokens : List Token} {depth : Nat}
    (hopening : opening.kind = .openParen) (hclosing : closing.kind = .closeParen)
    (h : ∀ opened rest, nestingFrom opened false (tokens ++ rest) =
      max (opened + depth) (nestingFrom opened false rest)) (rest : List Token) :
    nestingFrom opened false (opening :: (tokens ++ [closing]) ++ rest) =
      max (opened + (depth + 1)) (nestingFrom opened false rest) := by
  have hclose : nestingFrom (opened + 1) false (closing :: rest) =
      max (opened + 1) (nestingFrom opened false rest) := by
    simp [nestingFrom, hclosing]
  have hopen : nestingFrom opened false (opening :: (tokens ++ [closing]) ++ rest) =
      nestingFrom (opened + 1) false (tokens ++ closing :: rest) := by
    simp [nestingFrom, hopening]
  rw [hopen, h, hclose]
  omega

mutual

/-- Behind a clause as many groups are open as ahead of it, and in it as many more as it is deep. -/
theorem DerivesClause.nestingFrom_append {depth : Nat} {tokens : List Token} {clause : Clause} :
    DerivesClause catalog now depth tokens clause → ∀ (opened : Nat) (rest : List Token),
      nestingFrom opened false (tokens ++ rest) =
        max (opened + depth) (nestingFrom opened false rest)
  | .leaf negation name _ keys test, opened, rest => by
      rw [List.append_assoc, negation.nestingFrom_append, List.cons_append,
        nestingFrom_literal (by simp [Token.isLiteral, name, TokenKind.isLiteral]),
        List.append_assoc, keys.nestingFrom_append, test.nestingFrom_append]
      exact (Nat.max_eq_right (le_nestingFrom false rest)).symm
  | .single negation opening sequence closing, _, rest
  | .group negation opening sequence _ closing, _, rest => by
      rw [List.append_assoc, negation.nestingFrom_append]
      exact nestingFrom_group opening closing sequence.nestingFrom_append rest

theorem DerivesSequence.nestingFrom_append {depth : Nat} {tokens : List Token}
    {clauses : List Clause} :
    DerivesSequence catalog now depth tokens clauses → ∀ (opened : Nat) (rest : List Token),
      nestingFrom opened false (tokens ++ rest) =
        max (opened + depth) (nestingFrom opened false rest)
  | .last clause, opened, rest => clause.nestingFrom_append opened rest
  | .join clause joiner others, opened, rest => by
      rw [List.append_assoc, clause.nestingFrom_append, List.cons_append,
        nestingFrom_joiner joiner, others.nestingFrom_append]
      omega

end

theorem DerivesSequence.nesting_eq {depth : Nat} {tokens : List Token} {clauses : List Clause}
    (h : DerivesSequence catalog now depth tokens clauses) : nesting tokens = depth := by
  have hfrom := h.nestingFrom_append 0 []
  simpa [nesting, nestingFrom] using hfrom

end Grammar

end RecordQuery
