import RecordQuery.Proofs.Grammar.Operands
import RecordQuery.Proofs.Reading.Charge

/-!
# How tokens decide a reading

A reader takes its tokens one by one and stops as soon as it can. So for all it does there is a
stretch of tokens that decides it, whatever stands behind them, whatever is open at the end of the
text, and however many literals are allowed, but for the operands that are charged on the way.
`Reading.Verdict` says which of three ways a reading goes:

* it takes some tokens and stops ahead of the next one, which it may have looked at;
* it finds a fault at a token, the last one it has looked at;
* the tokens end and something is missing.

A reader that is made of steps has the verdicts that its steps have one after the other
(`Verdict.bind`, `Verdict.skip`), so there is one short proof for each reader.
-/

namespace RecordQuery

namespace Fault

/-- The fault is found at a token, and not at the end of a text or at an opening that has no end. -/
def IsAt (token : Token) (fault : Fault) : Prop :=
  fault.position = token.position ∧
    match fault with
    | .unterminatedLiteral _ | .unterminatedKey _ | .unexpectedEnd _ _ => False
    | .unbalancedParenthesis _ => token.kind = .closeParen
    | _ => True

theorem isAt_unexpectedToken (token : Token) (expected : Expected) :
    (Fault.unexpectedToken token expected).IsAt token :=
  ⟨rfl, trivial⟩

theorem isAt_mismatch (column : Column) (token : Token) (reason : Mismatch) :
    (Reading.mismatch column token reason).IsAt token :=
  ⟨rfl, trivial⟩

end Fault

inductive Lack where
  | expected (e : Expected)
  | closing (opening : Token)

def Lack.IsOf (tokens : List Token) : Lack → Prop
  | .expected _ => True
  | .closing opening => opening ∈ tokens ∧ opening.kind = .openParen

/-- The fault of a text that ends too early: what it leaves open, or else what is missing. -/
def TokenStream.lackFault (s : TokenStream) : Lack → Fault
  | .expected e => s.endFault e
  | .closing opening => s.pendingFault.getD (.unbalancedParenthesis opening.position)

theorem TokenStream.lackFault_of_pending {s : TokenStream} {fault : Fault}
    (h : s.pendingFault = some fault) (lack : Lack) : s.lackFault lack = fault := by
  cases lack <;> simp [lackFault, endFault, h]

abbrev Reader (α : Type) :=
  Reading → Cursor → Except Fault (α × Cursor)

namespace Reading

/-- The same columns are looked up at the same time. The limit on literals may be another one, and
so may the stream. -/
structure Alike (r r' : Reading) : Prop where
  columns : r'.catalog.columns = r.catalog.columns
  now : r'.now = r.now

theorem Alike.refl (r : Reading) : r.Alike r :=
  ⟨rfl, rfl⟩

theorem alike_withLimit (r : Reading) (limit : Option Nat) :
    r.Alike (r.withLimit limit) :=
  ⟨rfl, rfl⟩

theorem Alike.resolve {r r' : Reading} (h : r.Alike r') (name : String) :
    r'.catalog.resolve name = r.catalog.resolve name := by
  rw [Catalog.resolve, Catalog.resolve, Catalog.index_congr h.columns, h.columns]

/-- How some tokens decide what a reader does in any reading like `r`. The first of them stands in
the slot `s`, and the one behind what is taken in the slot `t`. Groups may have been opened by any
tokens in `seen`. -/
inductive Verdict {α : Type} (r : Reading) (seen : List Token) (s t : Slot) (read : Reader α)
    (tokens : List Token) : Prop
  | accepted (taken rest : List Token) (result : α) :
      tokens = taken ++ rest → s.after taken = t →
      (∀ r' n more, r.Alike r' → more.head? = rest.head? → read r' ⟨taken ++ more, n⟩ =
        r'.charge n (s.operands taken) (.ok (result, ⟨more, n + (s.operands taken).length⟩))) →
      Verdict r seen s t read tokens
  | refused (taken : List Token) (token : Token) (rest : List Token) (fault : Fault) :
      tokens = taken ++ token :: rest → fault.IsAt token →
      (∀ r' n more, r.Alike r' → read r' ⟨taken ++ token :: more, n⟩ =
        r'.charge n (s.operands (taken ++ [token])) (.error fault)) →
      Verdict r seen s t read tokens
  | ended (lack : Lack) :
      lack.IsOf seen →
      (∀ r' n, r.Alike r' → read r' ⟨tokens, n⟩ =
        r'.charge n (s.operands tokens) (.error (r'.stream.lackFault lack))) →
      Verdict r seen s t read tokens

namespace Verdict

variable {α β : Type} {r : Reading} {seen tokens : List Token} {s t u : Slot}

theorem pure {read : Reader α} (result : α)
    (h : ∀ r' n more, r.Alike r' → more.head? = tokens.head? →
      read r' ⟨more, n⟩ = .ok (result, ⟨more, n⟩)) : Verdict r seen s s read tokens :=
  .accepted [] tokens result rfl rfl h

theorem refuse {read : Reader α} {token : Token} {fault : Fault} (hat : fault.IsAt token)
    (hs : s.asksForValue = false ∨ token.isLiteral = false)
    (h : ∀ r' n more, r.Alike r' → read r' ⟨token :: more, n⟩ = .error fault) :
    Verdict r seen s t read (token :: tokens) := by
  have hnone : s.operands [token] = [] := by
    rcases hs with hs | hs <;> simp [Slot.operands, hs]
  refine .refused [] token tokens fault rfl hat fun r' n more hr => ?_
  rw [List.nil_append, List.nil_append, hnone, charge_nil]
  exact h r' n more hr

/-- Readers that do the same wherever the first token is the given one. -/
theorem congr {read : Reader α} (other : Reader α)
    (hread : ∀ r' n more, r.Alike r' → more.head? = tokens.head? →
      read r' ⟨more, n⟩ = other r' ⟨more, n⟩)
    (h : Verdict r seen s t other tokens) : Verdict r seen s t read tokens := by
  cases h with
  | accepted taken rest result htokens ht run =>
      refine .accepted taken rest result htokens ht fun r' n more hr hmore => ?_
      rw [hread r' n _ hr (by rw [htokens, List.head?_append, List.head?_append, hmore])]
      exact run r' n more hr hmore
  | refused taken token rest fault htokens hat run =>
      refine .refused taken token rest fault htokens hat fun r' n more hr => ?_
      rw [hread r' n _ hr (by rw [htokens, List.head?_append, List.head?_append]; rfl)]
      exact run r' n more hr
  | ended lack hlack run =>
      refine .ended lack hlack fun r' n hr => ?_
      rw [hread r' n _ hr rfl]
      exact run r' n hr

/-- A reader that takes some tokens, none of them an operand, and goes on with `next`. -/
theorem skipAll {read : Reader α} (next : Reader α) {passed : List Token}
    (hs : s.operands passed = [])
    (hread : ∀ r' n more, r.Alike r' → read r' ⟨passed ++ more, n⟩ = next r' ⟨more, n⟩)
    (h : Verdict r seen (s.after passed) t next tokens) :
    Verdict r seen s t read (passed ++ tokens) := by
  have hoperands (behind : List Token) :
      s.operands (passed ++ behind) = (s.after passed).operands behind := by
    rw [s.operands_append, hs, List.nil_append]
  cases h with
  | accepted taken rest result htokens ht run =>
      refine .accepted (passed ++ taken) rest result (by rw [htokens, List.append_assoc])
        (by rw [s.after_append, ht]) fun r' n more hr hmore => ?_
      rw [List.append_assoc, hread r' n _ hr, hoperands]
      exact run r' n more hr hmore
  | refused taken token rest fault htokens hat run =>
      refine .refused (passed ++ taken) token rest fault (by rw [htokens, List.append_assoc]) hat
        fun r' n more hr => ?_
      rw [List.append_assoc, hread r' n _ hr, List.append_assoc, hoperands]
      exact run r' n more hr
  | ended lack hlack run =>
      refine .ended lack hlack fun r' n hr => ?_
      rw [hread r' n _ hr, hoperands]
      exact run r' n hr

theorem skip {read : Reader α} (next : Reader α) {token : Token} (hs : s.asksForValue = false)
    (hread : ∀ r' n more, r.Alike r' → read r' ⟨token :: more, n⟩ = next r' ⟨more, n⟩)
    (h : Verdict r seen (s.next token.kind) t next tokens) :
    Verdict r seen s t read (token :: tokens) :=
  .skipAll next (s.operands_cons_of_not hs token []) hread h

/-- Two readers one after the other. The second one reads what the first one leaves, which is an end
of the tokens. -/
theorem bind {read : Reader α} (next : α → Reader β) (first : Verdict r seen s t read tokens)
    (second : ∀ result rest, rest <:+ tokens → Verdict r seen t u (next result) rest) :
    Verdict r seen s u (fun r c => read r c >>= fun p => next p.1 r p.2) tokens := by
  cases first with
  | accepted taken rest result htokens ht run =>
      subst htokens ht
      cases second result rest (List.suffix_append _ _) with
      | accepted taken' rest' result' htokens' ht' run' =>
          refine .accepted (taken ++ taken') rest' result' (by rw [htokens', List.append_assoc])
            (by rw [s.after_append, ht']) fun r' n more hr hmore => ?_
          have hhead : (taken' ++ more).head? = rest.head? := by
            rw [htokens', List.head?_append, List.head?_append, hmore]
          rw [List.append_assoc, run r' n _ hr hhead, charge_bind, s.operands_append,
            charge_append, List.length_append, ← Nat.add_assoc]
          exact congrArg _ (run' r' _ more hr hmore)
      | refused taken' token rest' fault htokens' hat run' =>
          refine .refused (taken ++ taken') token rest' fault
            (by rw [htokens', List.append_assoc]) hat fun r' n more hr => ?_
          have hhead : (taken' ++ token :: more).head? = rest.head? := by
            rw [htokens', List.head?_append, List.head?_append, List.head?_cons, List.head?_cons]
          rw [List.append_assoc, run r' n _ hr hhead, charge_bind, List.append_assoc,
            s.operands_append, charge_append]
          exact congrArg _ (run' r' _ more hr)
      | ended lack hlack run' =>
          refine .ended lack hlack fun r' n hr => ?_
          rw [run r' n rest hr rfl, charge_bind, s.operands_append, charge_append]
          exact congrArg _ (run' r' _ hr)
  | refused taken token rest fault htokens hat run =>
      refine .refused taken token rest fault htokens hat fun r' n more hr => ?_
      rw [run r' n more hr, charge_bind]
      rfl
  | ended lack hlack run =>
      refine .ended lack hlack fun r' n hr => ?_
      rw [run r' n hr, charge_bind]
      rfl

theorem map {read : Reader α} (f : α → β) (h : Verdict r seen s t read tokens) :
    Verdict r seen s t (fun r c => read r c >>= fun p => .ok (f p.1, p.2)) tokens :=
  .bind (fun result _ c => .ok (f result, c)) h fun result _ _ =>
    .pure (f result) fun _ _ _ _ _ => rfl

theorem next {read : Reader α} (expected : Expected)
    (hend : ∀ r' n, r.Alike r' → read r' ⟨[], n⟩ = .error (r'.stream.endFault expected))
    (h : ∀ token rest, tokens = token :: rest → Verdict r seen s t read (token :: rest)) :
    Verdict r seen s t read tokens := by
  cases tokens with
  | nil => exact .ended (.expected expected) trivial hend
  | cons token rest => exact h token rest rfl

theorem expect (kind : TokenKind) (expected : Expected) (hs : s.asksForValue = false) :
    Verdict r seen s (s.next kind) (fun r => r.expect kind expected) tokens := by
  refine .next expected (fun _ _ _ => rfl) fun token rest _ => ?_
  by_cases hkind : token.kind = kind
  · subst hkind
    refine .skip (fun _ c => .ok (token, c)) hs (fun r' n more _ => if_pos rfl) ?_
    exact .pure token fun _ _ _ _ _ => rfl
  · exact .refuse (Fault.isAt_unexpectedToken token expected) (.inl hs)
      fun r' n more _ => if_neg hkind

theorem value {column : Column} (hs : s.asksForValue = true) (ht : ∀ kind, s.next kind = t) :
    Verdict r seen s t (fun r => r.value column) tokens := by
  refine .next .value (fun _ _ _ => rfl) fun token rest _ => ?_
  cases hliteral : token.isLiteral with
  | false =>
      refine .refuse (Fault.isAt_unexpectedToken token .value) (.inr hliteral)
        fun r' n more _ => ?_
      rw [value_cons, literal, hliteral]
      rfl
  | true =>
      have hone : s.operands [token] = [token] := by
        rw [s.operands_cons_of_isLiteral hs hliteral, Slot.operands_nil]
      cases hconvert : Literal.convert r.now column.type token with
      | error reason =>
          refine .refused [] token rest _ rfl (Fault.isAt_mismatch column token reason)
            fun r' n more hr => ?_
          rw [List.nil_append, List.nil_append, hone, value_cons,
            literal_eq_charge column hliteral, charge_bind, hr.now, hconvert]
          rfl
      | ok v =>
          refine .accepted [token] rest v rfl (ht token.kind) fun r' n more hr _ => ?_
          rw [hone, List.singleton_append, value_cons, literal_eq_charge column hliteral,
            charge_bind, hr.now, hconvert]
          rfl

end Verdict

end Reading

end RecordQuery
