import RecordQuery.Proofs.Filter.Verdict

/-!
# Counting the groups that are open

The reader of clauses is told how many groups may still be opened. It may as well count those that
are open: there is one more while a group is read, and one less behind it. The counter is a state
that outlives a failure, so it has to be set back whether a group is read or refused, and a clause
that is refused deep inside leaves it where it was, like any other (`Filter.keeps_clause`).

Counting is described by one equation, in which a clause calls for the clauses of a group with the
counter one up (`Filter.countingClause`). The counter is all that ends the recursion. There is
exactly one reader with this equation, and it reads what `readClause` reads
(`Filter.counts_iff_keeps`).
-/

namespace RecordQuery

namespace Filter

open Reading

abbrev Counting : Type → Type :=
  ExceptT Fault (StateM Nat)

def countingSequence (clause : Cursor → Counting (Clause × Cursor)) :
    (fuel : Nat) → Cursor → Counting (List Clause × Cursor)
  | 0, c => do
    let (first, c) ← clause c
    return ([first], c)
  | fuel + 1, c => do
    let (first, c) ← clause c
    match c.tokens.head?.bind conjunctionOf? with
    | some conjunction => do
      let (others, c) ← countingSequence clause fuel { c with tokens := c.tokens.tail }
      return (first.withConjunction conjunction :: others, c)
    | none => return ([first], c)

def countingGroup (r : Reading) (clause : Cursor → Counting (Clause × Cursor)) (opening : Token)
    (c : Cursor) : Counting (Clause × Cursor) := do
  let (clauses, c) ← countingSequence clause c.tokens.length c
  match c.tokens with
  | [] => throw (r.stream.pendingFault.getD (.unbalancedParenthesis opening.position))
  | token :: tokens =>
    if token.kind = .closeParen then return (groupOf clauses, { c with tokens := tokens })
    else throw (.unexpectedToken token .groupContinuation)

def insideGroup {α : Type} (group : Counting α) : Counting α := do
  modify (· + 1)
  let result : Except Fault α ← ExceptT.lift group.run
  modify (· - 1)
  ofExcept result

/-- Reads what stands behind the first token of a clause, the clauses in its groups by `clause`. -/
def countingBehind (r : Reading) (clause : Cursor → Counting (Clause × Cursor)) (token : Token)
    (c : Cursor) : Counting (Clause × Cursor) :=
  match token.kind with
  | .openParen => do
    let opened ← get
    if maxGroupDepth ≤ opened then throw (.unexpectedToken token .shallowerGroup)
    else insideGroup (countingGroup r clause token c)
  | .identifier => ofExcept (readLeaf r token c)
  | _ => throw (.unexpectedToken token .columnOrGroup)

def countingClause (r : Reading) (clause : Cursor → Counting (Clause × Cursor)) (c : Cursor) :
    Counting (Clause × Cursor) := do
  let (negated, token, c) ← ofExcept (readNegation r c)
  let (body, c) ← countingBehind r clause token c
  return (body.negateIf negated, c)

def Counts (r : Reading) (read : Cursor → Counting (Clause × Cursor)) : Prop :=
  ∀ c, read c = countingClause r read c

def Keeps {α : Type} (x : Counting α) (opened : Nat) (result : Except Fault α) : Prop :=
  (x.run.run opened).run = (result, opened)

namespace Keeps

variable {α β : Type} {opened : Nat} {x : Counting α} {result : Except Fault α}

theorem pure (a : α) : Keeps (Pure.pure a) opened (.ok a) := rfl

theorem throw (fault : Fault) : Keeps (throwThe Fault fault : Counting α) opened (.error fault) :=
  rfl

theorem ofExcept (result : Except Fault α) : Keeps (ofExcept result) opened result := by
  cases result <;> rfl

theorem bind {f : α → Counting β} {g : α → Except Fault β} (h : Keeps x opened result)
    (hf : ∀ a, Keeps (f a) opened (g a)) : Keeps (x >>= f) opened (result >>= g) := by
  have hrun : ((x >>= f).run.run opened).run =
      ((ExceptT.bindCont f (x.run.run opened).run.1).run (x.run.run opened).run.2).run := rfl
  rw [Keeps, hrun, h]
  cases result with
  | error fault => rfl
  | ok a => exact hf a

theorem get {f : Nat → Counting α} (h : Keeps (f opened) opened result) :
    Keeps (MonadState.get >>= f) opened result := h

theorem insideGroup (h : Keeps x (opened + 1) result) :
    Keeps (Filter.insideGroup x) opened result := by
  have hrun : ((Filter.insideGroup x).run.run opened).run =
      (((MonadExcept.ofExcept (x.run.run (opened + 1)).run.1 : Counting α).run.run
        ((x.run.run (opened + 1)).run.2 - 1)).run) := rfl
  rw [Keeps, hrun, h]
  exact ofExcept result

end Keeps

variable {r : Reading} {opened : Nat} {clause : Cursor → Counting (Clause × Cursor)}
  {read : Cursor → Except Fault (Clause × Cursor)}

theorem keeps_sequence (h : ∀ c, Keeps (clause c) opened (read c)) (fuel : Nat) (c : Cursor) :
    Keeps (countingSequence clause fuel c) opened (readSequence read fuel c) := by
  induction fuel generalizing c with
  | zero =>
      rw [countingSequence, readSequence]
      refine (h c).bind ?_
      rintro ⟨first, d⟩
      exact .pure ([first], d)
  | succ fuel ih =>
      rw [countingSequence, readSequence]
      refine (h c).bind ?_
      rintro ⟨first, d⟩
      cases hjoin : d.tokens.head?.bind conjunctionOf? with
      | none =>
          simp only [hjoin]
          exact .pure ([first], d)
      | some conjunction =>
          simp only [hjoin]
          refine (ih _).bind ?_
          rintro ⟨others, e⟩
          exact .pure (first.withConjunction conjunction :: others, e)

theorem keeps_group (h : ∀ c, Keeps (clause c) opened (read c)) (opening : Token) (c : Cursor) :
    Keeps (countingGroup r clause opening c) opened (readGroup r read opening c) := by
  rw [countingGroup, readGroup]
  refine (keeps_sequence h _ c).bind ?_
  rintro ⟨clauses, _ | ⟨token, tokens⟩, n⟩
  · exact .throw _
  · by_cases hclosing : token.kind = .closeParen
    · simp only [hclosing, if_true]
      exact .pure _
    · simp only [hclosing, if_false]
      exact .throw _

theorem keeps_behind
    (h : opened < maxGroupDepth →
      ∀ c, Keeps (clause c) (opened + 1) (readClause r (maxGroupDepth - (opened + 1)) c))
    (token : Token) (c : Cursor) :
    Keeps (countingBehind r clause token c) opened
      (clauseBehind (maxGroupDepth - opened) token r c) := by
  rw [countingBehind.eq_def, clauseBehind.eq_def]
  cases hkind : token.kind with
  | openParen =>
      refine .get ?_
      by_cases hfull : maxGroupDepth ≤ opened
      · rw [if_pos hfull, Nat.sub_eq_zero_of_le hfull]
        exact .throw _
      · have hroom : maxGroupDepth - opened = maxGroupDepth - (opened + 1) + 1 := by omega
        rw [if_neg hfull, hroom]
        exact (keeps_group (h (by omega)) token c).insideGroup
  | identifier => exact .ofExcept _
  | _ => exact .throw _

/-- A clause keeps the counter if those in its groups do, when they are counted one deeper. -/
theorem keeps_clause
    (h : opened < maxGroupDepth →
      ∀ c, Keeps (clause c) (opened + 1) (readClause r (maxGroupDepth - (opened + 1)) c))
    (c : Cursor) :
    Keeps (countingClause r clause c) opened (readClause r (maxGroupDepth - opened) c) := by
  rw [countingClause, readClause_eq]
  refine (Keeps.ofExcept _).bind ?_
  rintro ⟨negated, token, d⟩
  refine (keeps_behind h token d).bind ?_
  rintro ⟨body, e⟩
  exact .pure (body.negateIf negated, e)

/-- A reader counts groups if and only if it reads with the room that is left and keeps the counter,
whether it succeeds or fails. -/
theorem counts_iff_keeps :
    Counts r clause ↔
      ∀ opened c, Keeps (clause c) opened (readClause r (maxGroupDepth - opened) c) := by
  constructor
  · intro h
    have below (room : Nat) : ∀ opened, maxGroupDepth - opened = room →
        ∀ c, Keeps (clause c) opened (readClause r (maxGroupDepth - opened) c) := by
      induction room with
      | zero =>
          intro opened hroom c
          rw [h c]
          exact keeps_clause (fun hopened => by omega) c
      | succ room ih =>
          intro opened hroom c
          rw [h c]
          exact keeps_clause (fun hopened => ih (opened + 1) (by omega)) c
    exact fun opened => below _ opened rfl
  · intro h c
    have hsame (opened : Nat) :
        ((clause c).run.run opened).run = ((countingClause r clause c).run.run opened).run := by
      rw [h opened c, keeps_clause (fun _ => h (opened + 1)) c]
    exact funext hsame

theorem existsUnique_counts (r : Reading) :
    ∃! clause : Cursor → Counting (Clause × Cursor), Counts r clause := by
  refine ⟨fun c opened => (readClause r (maxGroupDepth - opened) c, opened),
    counts_iff_keeps.2 fun _ _ => rfl, fun clause h => ?_⟩
  funext c opened
  exact counts_iff_keeps.1 h opened c

end Filter

end RecordQuery
