import RecordQuery.Proofs.Grammar

/-!
# What the steps of reading take

A step is given the tokens that are left and returns what is left behind it. `Reading.Advances` puts
on record what it took: the tokens, and how many of them were literals. The limit of the catalog is
checked with every literal, so a step that took one leaves a number of literals that it allows.

Records of steps that follow each other can be joined (`Advances.trans`) and cut
(`Advances.split`), so a reader that is made of steps is described by the grammar rule that is made
of their phrases.
-/

namespace RecordQuery

namespace Reading

open Grammar

theorem bind_eq_ok_iff {ε α β : Type} {x : Except ε α} {f : α → Except ε β} {b : β} :
    (x >>= f) = .ok b ↔ ∃ a, x = .ok a ∧ f a = .ok b := by
  cases x with
  | error e => simp [bind, Except.bind]
  | ok a => simp [bind, Except.bind]

theorem bind_eq_error_iff {ε α β : Type} {x : Except ε α} {f : α → Except ε β} {e : ε} :
    (x >>= f) = .error e ↔ x = .error e ∨ ∃ a, x = .ok a ∧ f a = .error e := by
  cases x with
  | error e' => simp [bind, Except.bind]
  | ok a => simp [bind, Except.bind]

theorem ok_bind {ε α β : Type} (a : α) (f : α → Except ε β) : (Except.ok a >>= f) = f a := rfl

theorem error_bind {ε α β : Type} (e : ε) (f : α → Except ε β) :
    (Except.error e >>= f) = .error e := rfl

theorem mapError_eq_ok_iff {ε ε' α : Type} {x : Except ε α} {f : ε → ε'} {a : α} :
    x.mapError f = .ok a ↔ x = .ok a := by
  cases x with
  | error e => exact iff_of_false (fun h => by cases h) (fun h => by cases h)
  | ok b =>
      constructor <;> intro h
      · cases h
        rfl
      · cases h
        rfl

theorem mapError_eq_error_iff {ε ε' α : Type} {x : Except ε α} {f : ε → ε'} {e' : ε'} :
    x.mapError f = .error e' ↔ ∃ e, x = .error e ∧ f e = e' := by
  cases x with
  | error e => exact ⟨fun h => ⟨e, rfl, Except.error.inj h⟩, by rintro ⟨_, ⟨⟩, rfl⟩; rfl⟩
  | ok a => exact iff_of_false (fun h => by cases h) (by rintro ⟨_, ⟨⟩, _⟩)

theorem limitExceededBy?_eq_none_iff (r : Reading) (parameters : Nat) :
    r.limitExceededBy? parameters = none ↔ r.catalog.Allows parameters := by
  simp [limitExceededBy?, Catalog.Allows, Option.filter_eq_none_iff]

/-- Reading has gone on from `c` to `c'`. It took the given tokens, `count` of them literals. -/
structure Advances (r : Reading) (c : Cursor) (taken : List Token) (count : Nat) (c' : Cursor) :
    Prop where
  tokens : c.tokens = taken ++ c'.tokens
  parameters : c'.parameters = c.parameters + count
  allowed : count ≠ 0 → r.catalog.Allows c'.parameters

theorem Advances.trans {r : Reading} {c c' c'' : Cursor} {first second : List Token} {m n : Nat}
    (h : r.Advances c first m c') (h' : r.Advances c' second n c'') :
    r.Advances c (first ++ second) (m + n) c'' where
  tokens := by rw [h.tokens, h'.tokens, List.append_assoc]
  parameters := by rw [h'.parameters, h.parameters, Nat.add_assoc]
  allowed := by
    intro hmn
    by_cases hn : n = 0
    · have hp : c''.parameters = c'.parameters := by rw [h'.parameters, hn, Nat.add_zero]
      rw [hp]
      exact h.allowed (by omega)
    · exact h'.allowed hn

/-- Reading goes on with a number of literals that is allowed, if it began with one. -/
theorem Advances.allows {r : Reading} {c c' : Cursor} {taken : List Token} {n : Nat}
    (h : r.Advances c taken n c') (allowed : r.catalog.Allows c.parameters) :
    r.catalog.Allows c'.parameters := by
  by_cases hn : n = 0
  · rw [h.parameters, hn]
    exact allowed
  · exact h.allowed hn

theorem Advances.split {r : Reading} {c c' : Cursor} {first second : List Token} {m n : Nat}
    (h : r.Advances c (first ++ second) (m + n) c') :
    ∃ middle, r.Advances c first m middle ∧ r.Advances middle second n c' := by
  refine ⟨⟨second ++ c'.tokens, c.parameters + m⟩, ⟨?_, rfl, ?_⟩, rfl, ?_, ?_⟩
  · rw [h.tokens, List.append_assoc]
  · intro hm
    have hp : c'.parameters = c.parameters + (m + n) := h.parameters
    exact (h.allowed (by omega)).mono (by simp only []; omega)
  · rw [h.parameters, Nat.add_assoc]
  · intro hn
    exact h.allowed (by omega)

/-- The cursor behind the first of some tokens, if it is no literal that counts. -/
theorem Advances.split_cons {r : Reading} {c c' : Cursor} {token : Token} {rest : List Token}
    {n : Nat} (h : r.Advances c (token :: rest) n c') :
    ∃ middle, r.Advances c [token] 0 middle ∧ r.Advances middle rest n c' :=
  Advances.split (by simpa using h)

theorem next_eq_ok_iff {r : Reading} {expected : Expected} {c c' : Cursor} {token : Token} :
    r.next expected c = .ok (token, c') ↔ r.Advances c [token] 0 c' := by
  rcases c with ⟨tokens, parameters⟩
  rcases c' with ⟨tokens', parameters'⟩
  cases tokens with
  | nil =>
      constructor
      · intro h
        cases h
      · intro h
        simpa using h.tokens
  | cons t ts =>
      constructor
      · intro h
        cases h
        exact ⟨rfl, rfl, fun h => absurd rfl h⟩
      · intro h
        have ht := h.tokens
        have hp := h.parameters
        simp only [List.cons_append, List.nil_append, List.cons.injEq, Nat.add_zero] at ht hp
        simp [next, ht.1, ht.2, hp]

theorem expect_eq_ok_iff {r : Reading} {kind : TokenKind} {expected : Expected} {c c' : Cursor}
    {token : Token} :
    r.expect kind expected c = .ok (token, c') ↔
      token.kind = kind ∧ r.Advances c [token] 0 c' := by
  rw [expect, bind_eq_ok_iff]
  constructor
  · rintro ⟨⟨t, d⟩, hnext, h⟩
    dsimp only at h
    by_cases hk : t.kind = kind
    · rw [if_pos hk] at h
      cases h
      exact ⟨hk, next_eq_ok_iff.1 hnext⟩
    · rw [if_neg hk] at h
      cases h
  · rintro ⟨hk, h⟩
    exact ⟨(token, c'), next_eq_ok_iff.2 h, by simp [hk]⟩

theorem literal_eq_ok_iff {r : Reading} {column : Column} {parameters : Nat} {token : Token}
    {v : Value} :
    r.literal column parameters token = .ok v ↔
      Operand r.now column token v ∧ r.catalog.Allows (parameters + 1) := by
  rw [literal, ← limitExceededBy?_eq_none_iff]
  cases hl : token.isLiteral with
  | false =>
      constructor
      · intro h
        cases h
      · rintro ⟨h, -⟩
        rw [h.isLiteral] at hl
        cases hl
  | true =>
      cases hf : r.limitExceededBy? (parameters + 1) with
      | some maximum => simp
      | none =>
          cases hc : Literal.convert r.now column.type token with
          | error e =>
              constructor
              · intro h
                cases h
              · rintro ⟨h, -⟩
                rw [h.convert] at hc
                cases hc
          | ok w =>
              constructor
              · intro h
                cases h
                exact ⟨⟨hl, hc⟩, rfl⟩
              · rintro ⟨h, -⟩
                rw [h.convert] at hc
                cases hc
                rfl

theorem value_eq_ok_iff {r : Reading} {column : Column} {c c' : Cursor} {v : Value} :
    r.value column c = .ok (v, c') ↔
      ∃ token, Operand r.now column token v ∧ r.Advances c [token] 1 c' := by
  rw [value, bind_eq_ok_iff]
  constructor
  · rintro ⟨⟨token, rest⟩, hnext, h⟩
    rcases bind_eq_ok_iff.1 h with ⟨w, hw, h⟩
    rcases literal_eq_ok_iff.1 hw with ⟨operand, allowed⟩
    have step := next_eq_ok_iff.1 hnext
    cases h
    exact ⟨token, operand, step.tokens, rfl, fun _ => allowed⟩
  · rintro ⟨token, operand, step⟩
    rcases c' with ⟨tokens', parameters'⟩
    obtain ⟨rfl⟩ : parameters' = c.parameters + 1 := step.parameters
    refine ⟨(token, ⟨tokens', c.parameters⟩), ?_, ?_⟩
    · exact next_eq_ok_iff.2 ⟨step.tokens, rfl, fun h => absurd rfl h⟩
    · exact bind_eq_ok_iff.2
        ⟨v, literal_eq_ok_iff.2 ⟨operand, step.allowed (by simp)⟩, rfl⟩

end Reading

end RecordQuery
