import RecordQuery.Order.Reader
import RecordQuery.Proofs.Reading.Decision

/-!
# How tokens decide an order

A sort expression has no literals that count, so of its tokens none is an operand, and the limit of
the catalog plays no part in its reading.
-/

namespace RecordQuery

namespace SortKey

open Reading

variable {r : Reading} {seen : List Token}

def keysReader : Reader (List SortKey) := fun r c =>
  readKeys r.catalog r.stream c.tokens >>= fun keys => .ok (keys, ⟨[], c.parameters⟩)

def keyBehind (key : SortKey) : Reader (List SortKey) := fun r c =>
  match c.tokens with
  | [] => .ok ([key], c)
  | separator :: tokens =>
    if separator.kind = .comma then
      keysReader r ⟨tokens, c.parameters⟩ >>= fun p => .ok (key :: p.1, p.2)
    else .error (.unexpectedToken separator .orderContinuation)

def columnBehind (column : Column) : Reader (List SortKey) := fun r c =>
  match c.tokens with
  | [] => keyBehind ⟨column, .ascending⟩ r c
  | token :: tokens =>
    if token.kind = .identifier then
      match Direction.ofWord? token.text with
      | none => .error (.unexpectedToken token .orderContinuation)
      | some direction => keyBehind ⟨column, direction⟩ r ⟨tokens, c.parameters⟩
    else keyBehind ⟨column, .ascending⟩ r c

theorem keyBehind_eq (key : SortKey) (r : Reading) (tokens : List Token) (n : Nat) :
    keyBehind key r ⟨tokens, n⟩ =
      (match tokens with
        | [] => .ok [key]
        | separator :: tokens =>
          if separator.kind = .comma then
            readKeys r.catalog r.stream tokens >>= fun keys => .ok (key :: keys)
          else .error (.unexpectedToken separator .orderContinuation)) >>= fun keys =>
        .ok (keys, ⟨[], n⟩) := by
  cases tokens with
  | nil => rfl
  | cons separator tokens =>
      by_cases hcomma : separator.kind = .comma
      · simp only [keyBehind, keysReader, hcomma, if_true]
        cases readKeys r.catalog r.stream tokens <;> rfl
      · simp only [keyBehind, hcomma, if_false]
        rfl

theorem keysReader_cons (r : Reading) (name : Token) (tokens : List Token) (n : Nat) :
    keysReader r ⟨name :: tokens, n⟩ =
      if name.kind = .identifier then
        r.catalog.columnOf name >>= fun column => columnBehind column r ⟨tokens, n⟩
      else .error (.unexpectedToken name .columnName) := by
  rw [keysReader, readKeys]
  by_cases hname : name.kind = .identifier
  · rw [if_pos hname, if_pos hname]
    cases r.catalog.columnOf name with
    | error fault => rfl
    | ok column =>
        cases tokens with
        | nil => rfl
        | cons token tokens =>
            by_cases hword : token.kind = .identifier
            · simp only [ok_bind, columnBehind, hword, reduceCtorEq, if_false, if_true]
              cases Direction.ofWord? token.text with
              | none => rfl
              | some direction => exact (keyBehind_eq ⟨column, direction⟩ r tokens n).symm
            · simp only [ok_bind, columnBehind, hword, if_false, keyBehind_eq]
  · rw [if_neg hname, if_neg hname]
    rfl

theorem verdict_keyBehind (key : SortKey) {tokens : List Token}
    (hkeys : ∀ others, others.length < tokens.length →
      Verdict r seen .sortKey .sortKey keysReader others) :
    Verdict r seen .sortKey .sortKey (keyBehind key) tokens := by
  match tokens with
  | [] =>
      refine .pure [key] fun r' n more _ hmore => ?_
      rw [List.head?_eq_none_iff.1 hmore]
      rfl
  | separator :: others =>
      by_cases hcomma : separator.kind = .comma
      · refine .skip (fun r c => keysReader r c >>= fun p => .ok (key :: p.1, p.2)) rfl
          (fun r' n more _ => if_pos hcomma) ?_
        exact (hkeys others (Nat.lt_succ_self _)).map (key :: ·)
      · exact .refuse (Fault.isAt_unexpectedToken separator .orderContinuation) (.inl rfl)
          fun r' n more _ => if_neg hcomma

theorem verdict_columnBehind (column : Column) {tokens : List Token}
    (hkeys : ∀ others, others.length < tokens.length →
      Verdict r seen .sortKey .sortKey keysReader others) :
    Verdict r seen .sortKey .sortKey (columnBehind column) tokens := by
  match tokens with
  | [] =>
      refine .congr (keyBehind ⟨column, .ascending⟩) (fun r' n more _ hmore => ?_)
        (verdict_keyBehind _ hkeys)
      rw [List.head?_eq_none_iff.1 hmore]
      rfl
  | token :: others =>
      by_cases hword : token.kind = .identifier
      · cases hdirection : Direction.ofWord? token.text with
        | none =>
            refine .refuse (Fault.isAt_unexpectedToken token .orderContinuation) (.inl rfl)
              fun r' n more _ => ?_
            simp only [columnBehind, hword, hdirection, if_true]
        | some direction =>
            refine .skip (keyBehind ⟨column, direction⟩) rfl (fun r' n more _ => ?_) ?_
            · simp only [columnBehind, hword, hdirection, if_true]
            · exact verdict_keyBehind _ fun rest hrest => hkeys rest (Nat.lt_succ_of_lt hrest)
      · refine .congr (keyBehind ⟨column, .ascending⟩) (fun r' n more _ hmore => ?_)
          (verdict_keyBehind _ hkeys)
        rcases List.head?_eq_some_iff.1 hmore with ⟨behind, rfl⟩
        exact if_neg hword

theorem verdict_keys (tokens : List Token) :
    Verdict r seen .sortKey .sortKey keysReader tokens := by
  refine .next .columnName (fun _ _ _ => rfl) fun name rest htokens => ?_
  subst htokens
  by_cases hname : name.kind = .identifier
  · cases hcolumn : r.catalog.resolve name.text with
    | none =>
        have hat : (Fault.unknownColumn name.text name.position).IsAt name := ⟨rfl, trivial⟩
        refine .refuse hat (.inl rfl) fun r' n more hr => ?_
        rw [keysReader_cons, if_pos hname, Catalog.columnOf, hr.resolve, hcolumn]
        rfl
    | some column =>
        refine .skip (columnBehind column) rfl (fun r' n more hr => ?_) ?_
        · rw [keysReader_cons, if_pos hname, Catalog.columnOf, hr.resolve, hcolumn]
          rfl
        · exact verdict_columnBehind column fun others hothers =>
            have : others.length < (name :: rest).length := Nat.lt_succ_of_lt hothers
            verdict_keys others
  · refine .refuse (Fault.isAt_unexpectedToken name .columnName) (.inl rfl) fun r' n more _ => ?_
    rw [keysReader_cons, if_neg hname]
termination_by tokens.length

theorem decision (r : Reading) (tokens : List Token) :
    Decision r .sortKey (fun r => readTokens r.catalog r.stream) tokens := by
  refine .of_verdict keysReader [] (fun r' htokens => ?_) (fun r' htokens => ?_)
    (fun r' c keys c' h => ?_) (verdict_keys tokens)
  · rw [readTokens, htokens]
    rfl
  · rw [readTokens, List.isEmpty_eq_false_iff.2 htokens, keysReader]
    cases readKeys r'.catalog r'.stream r'.stream.tokens <;> rfl
  · rcases bind_eq_ok_iff.1 h with ⟨keys', -, h⟩
    cases h
    rfl

theorem parses_ofText (catalog : Catalog) (now : Timestamp) :
    Parses catalog now .orderBy (ofText catalog) .sortKey
      fun r => readTokens r.catalog r.stream :=
  ⟨decision, fun _ => rfl⟩

end SortKey

end RecordQuery
