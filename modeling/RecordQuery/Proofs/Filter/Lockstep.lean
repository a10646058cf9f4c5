import RecordQuery.Proofs.Filter.Verdict
import RecordQuery.Proofs.Reading.Lockstep

/-!
# Filters read in lockstep

Every reader of the grammar goes in step with itself on another spelling of the same query
(`Reading.InStep`). Behind a column, and up to the end of its test, that column is the one that was
named last, so the operands are held against it in both readings. Between clauses it does not matter
which one that is.
-/

namespace RecordQuery

namespace Filter

open Reading

variable {r : Reading} {s : TokenStream} {Paired : Token → Token → Prop} {as bs : List Token}
  {n : Nat} {column : Column}

theorem inStep_keys (hclosed : Closed r s)
    (h : Respelled r.catalog Paired ⟨.other, some column⟩ as bs) :
    InStep r s Paired (· = ⟨.other, some column⟩) (keysReader column r ⟨as, n⟩)
      (keysReader column (r.on s) ⟨bs, n⟩) := by
  fun_induction readKeys r column as generalizing bs with
  | case1 =>
      cases h
      exact .ok [] n rfl .nil
  | case2 opening hopening hnested =>
      obtain ⟨_, _, rfl, -, -, hopening', h⟩ := h.uncons hopening (by decide) rfl
      cases h
      simp only [keysReader, readKeys, hopening, hopening', hnested, if_true]
      exact .endFault hclosed .keyName
  | case3 opening hopening hnested name hname =>
      obtain ⟨_, _, rfl, -, -, hopening', h⟩ := h.uncons hopening (by decide) rfl
      obtain ⟨_, _, rfl, -, -, hname', h⟩ := h.uncons hname (by decide) rfl
      cases h
      simp only [keysReader, readKeys, hopening, hopening', hnested, hname, hname', if_true]
      exact .endFault hclosed .closeBracket
  | case4 opening hopening hnested name hname closing tokens hclosing ih =>
      obtain ⟨_, _, rfl, -, -, hopening', h⟩ := h.uncons hopening (by decide) rfl
      obtain ⟨name', _, rfl, -, hab, hname', h⟩ := h.uncons hname (by decide) rfl
      obtain ⟨_, rest, rfl, -, -, hclosing', h⟩ := h.uncons hclosing (by decide) rfl
      rw [keysReader_segment hnested hopening hname hclosing,
        keysReader_segment hnested hopening' hname' hclosing', hab.text_eq rfl hname]
      exact (ih h).map (name.text :: ·)
  | case5 opening hopening hnested name hname closing tokens hclosing =>
      obtain ⟨_, _, rfl, -, -, hopening', h⟩ := h.uncons hopening (by decide) rfl
      obtain ⟨_, _, rfl, -, -, hname', h⟩ := h.uncons hname (by decide) rfl
      cases h with
      | cons hpaired hab _ =>
          simp only [keysReader, readKeys, hopening, hopening', hnested, hname, hname', hclosing,
            hab.kind_eq rfl, if_true, if_false]
          exact .error (.unexpectedToken .closeBracket hpaired)
  | case6 opening hopening hnested name tokens hname =>
      obtain ⟨_, _, rfl, -, -, hopening', h⟩ := h.uncons hopening (by decide) rfl
      cases h with
      | cons hpaired hab _ =>
          rw [keysReader, keysReader, readKeys.eq_def, readKeys.eq_def]
          simp only [hopening, hopening', hnested, hname, hab.kind_eq rfl, if_true, if_false]
          exact .error (.unexpectedToken .keyName hpaired)
  | case7 opening tokens hopening hnested =>
      obtain ⟨_, _, rfl, hpaired, -, hopening', h⟩ := h.uncons hopening (by decide) rfl
      rw [keysReader, keysReader, readKeys.eq_def, readKeys.eq_def]
      simp only [hopening, hopening', hnested, if_true]
      exact .error (.typeMismatch _ _ .keysNotSupported hpaired)
  | case8 opening tokens hopening =>
      cases h with
      | cons hpaired hab htokens =>
          rw [keysReader, keysReader, readKeys.eq_def, readKeys.eq_def]
          simp only [hopening, hab.kind_eq rfl, if_false]
          exact .ok [] n rfl (.cons hpaired hab htokens)

theorem inStep_values (hclosed : Closed r s) {as bs : List Token} {n : Nat}
    (h : Respelled r.catalog Paired ⟨.operand, some column⟩ as bs) :
    InStep r s Paired (· = ⟨.other, some column⟩) (readValues r column n as)
      (readValues (r.on s) column n bs) := by
  rw [readValues_eq column ⟨as, n⟩, readValues_eq column ⟨bs, n⟩]
  refine .value hclosed h ⟨rfl, rfl⟩ fun v rest rest' hlength htokens => ?_
  cases htokens with
  | nil => exact .endFault hclosed .listContinuation
  | @cons _ a b others others' hpaired hab htokens =>
      have hshorter : others.length < as.length := Nat.lt_of_succ_lt hlength
      simp only [listBehind, hab.kind_eq rfl]
      by_cases hcomma : a.kind = .comma
      · rw [Standing.next_of_kind hcomma (by decide)] at htokens
        rw [if_pos hcomma, if_pos hcomma]
        exact (inStep_values hclosed htokens).map (v :: ·)
      · rw [if_neg hcomma, if_neg hcomma]
        by_cases hclosing : a.kind = .closeParen
        · rw [Standing.next_of_kind hclosing (by decide)] at htokens
          rw [if_pos hclosing, if_pos hclosing]
          exact .ok [v] (n + 1) rfl htokens
        · rw [if_neg hclosing, if_neg hclosing]
          exact .error (.unexpectedToken .listContinuation hpaired)
termination_by as.length

theorem inStep_list (hclosed : Closed r s)
    (h : Respelled r.catalog Paired ⟨.list, some column⟩ as bs) :
    InStep r s Paired (· = ⟨.other, some column⟩) (readList r column ⟨as, n⟩)
      (readList (r.on s) column ⟨bs, n⟩) := by
  refine .expect hclosed .openParen .openParen (by decide) h rfl fun _ _ rest rest' htokens => ?_
  cases htokens with
  | nil => exact .endFault hclosed .value
  | @cons _ a b others others' hpaired hab htokens =>
      have hkind : b.kind = .closeParen ↔ a.kind = .closeParen := hab.kind_eq_iff rfl
      simp only [hkind]
      by_cases hclosing : a.kind = .closeParen
      · rw [if_pos hclosing, if_pos hclosing]
        exact .error (.unexpectedToken .someValue hpaired)
      · rw [if_neg hclosing, if_neg hclosing]
        exact inStep_values hclosed (.cons hpaired hab htokens)

theorem inStep_nullTest (hclosed : Closed r s)
    (h : Respelled r.catalog Paired ⟨.other, some column⟩ as bs) :
    InStep r s Paired (· = ⟨.other, some column⟩) (readNullTest r ⟨as, n⟩)
      (readNullTest (r.on s) ⟨bs, n⟩) := by
  cases h with
  | nil => exact .endFault hclosed .nullOrNotNull
  | @cons _ a b as bs hpaired hab htokens =>
      simp only [readNullTest, Reading.next, ok_bind, hab.kind_eq rfl]
      by_cases hnot : a.kind = .not
      · rw [Standing.next_of_kind hnot (by decide)] at htokens
        rw [if_pos hnot, if_pos hnot]
        exact .expect hclosed .null .null (by decide) htokens rfl fun _ _ _ _ => .ok _ n rfl
      · rw [if_neg hnot, if_neg hnot]
        by_cases hnull : a.kind = .null
        · rw [Standing.next_of_kind hnull (by decide)] at htokens
          rw [if_pos hnull, if_pos hnull]
          exact .ok _ n rfl htokens
        · rw [if_neg hnull, if_neg hnull]
          exact .error (.unexpectedToken .null hpaired)

theorem inStep_bounds (hclosed : Closed r s)
    (h : Respelled r.catalog Paired ⟨.bound, some column⟩ as bs) :
    InStep r s Paired (· = ⟨.other, some column⟩) (readBounds r column ⟨as, n⟩)
      (readBounds (r.on s) column ⟨bs, n⟩) :=
  .value hclosed h ⟨rfl, rfl⟩ fun lower _ _ _ h =>
    .expect hclosed .and .and (by decide) h rfl fun _ _ _ _ h =>
      .value hclosed h ⟨rfl, rfl⟩ fun upper _ _ _ h => .ok (Test.between lower upper) _ rfl h

theorem inStep_criterion (hclosed : Closed r s) (operation : Operation)
    (h : Respelled r.catalog Paired ⟨.operand, some column⟩ as bs) :
    InStep r s Paired (· = ⟨.other, some column⟩) (criterionReader column operation r ⟨as, n⟩)
      (criterionReader column operation (r.on s) ⟨bs, n⟩) :=
  .value hclosed h ⟨rfl, rfl⟩ fun v _ _ _ h => .ok (Test.criterion operation (some v)) _ rfl h

theorem inStep_test (hclosed : Closed r s)
    (h : Respelled r.catalog Paired ⟨.other, some column⟩ as bs) :
    InStep r s Paired (· = ⟨.other, some column⟩) (readTest r column ⟨as, n⟩)
      (readTest (r.on s) column ⟨bs, n⟩) := by
  cases h with
  | nil => exact .endFault hclosed .operator
  | @cons _ a b as bs hpaired hab htokens =>
      rw [readTest_cons, readTest_cons, hab.kind_eq rfl]
      cases hkind : a.kind with
      | operator op =>
          rw [Standing.next_of_kind hkind (by simp)] at htokens
          cases op with
          | is => exact inStep_nullTest hclosed htokens
          | between => exact inStep_bounds hclosed htokens
          | oneOf => exact (inStep_list hclosed htokens).map Test.oneOf
          | relation rel => exact inStep_criterion hclosed (.relation rel) htokens
          | text t =>
              cases hsupported : column.type.supportsTextTests with
              | true =>
                  simp only [if_true]
                  exact inStep_criterion hclosed (.text t) htokens
              | false =>
                  exact .error (.typeMismatch _ _ (.textOnly t) hpaired)
      | _ => exact .error (.unexpectedToken .operator hpaired)

theorem asksForValue_of_other {p : Standing} (hp : p.slot = .other) :
    p.slot.asksForValue = false := by
  rw [hp]
  rfl

/-- A test is read in step behind a name, since both names resolve alike. -/
theorem inStep_leaf (hclosed : Closed r s) {p : Standing} {a b : Token} (hpaired : Paired a b)
    (hab : a.Respells r.catalog p b) (hp : p.slot = .other) (ha : a.kind = .identifier)
    (h : Respelled r.catalog Paired (p.next r.catalog a) as bs) :
    InStep r s Paired (·.slot = .other) (readLeaf r a ⟨as, n⟩) (readLeaf (r.on s) b ⟨bs, n⟩) := by
  have hslot := asksForValue_of_other hp
  have hresolve : (r.on s).catalog.resolve b.text = r.catalog.resolve a.text :=
    hab.resolve_eq hslot ha
  cases hcolumn : r.catalog.resolve a.text with
  | none =>
      simp only [readLeaf, Catalog.columnOf, hresolve, hcolumn]
      exact .error (.unknownColumn hpaired)
  | some column =>
      have hstanding : p.next r.catalog a = ⟨.other, some column⟩ := by
        ext1
        · rw [Standing.next, hp, ha]
          rfl
        · rw [Standing.next, if_pos ⟨ha, hslot⟩, hcolumn]
      rw [hstanding] at h
      rw [readLeaf_eq hcolumn, readLeaf_eq (hresolve.trans hcolumn)]
      refine (inStep_keys hclosed h).bind fun p as bs keys n hp h => ?_
      subst hp
      refine (inStep_test hclosed h).bind fun p as bs test n hp h => ?_
      subst hp
      exact .ok (Clause.leaf false none ⟨column, keys⟩ test) n rfl h

def ClausesInStep (r : Reading) (s : TokenStream) (Paired : Token → Token → Prop)
    (clause clause' : Cursor → Except Fault (Clause × Cursor)) : Prop :=
  ∀ p as bs n, p.slot = .other → Respelled r.catalog Paired p as bs →
    InStep r s Paired (·.slot = .other) (clause ⟨as, n⟩) (clause' ⟨bs, n⟩)

variable {clause clause' : Cursor → Except Fault (Clause × Cursor)}

theorem inStep_sequence (hclause : ClausesInStep r s Paired clause clause') (fuel : Nat)
    {p : Standing} (hp : p.slot = .other) {as bs : List Token} {n : Nat}
    (h : Respelled r.catalog Paired p as bs) :
    InStep r s Paired (·.slot = .other) (readSequence clause fuel ⟨as, n⟩)
      (readSequence clause' fuel ⟨bs, n⟩) := by
  induction fuel generalizing p as bs n with
  | zero => exact (hclause p as bs n hp h).bind fun _ _ _ first n hp h => .ok [first] n hp h
  | succ fuel ih =>
      refine (hclause p as bs n hp h).bind fun p as bs first n hp h => ?_
      cases h with
      | nil => exact .ok [first] n hp .nil
      | @cons _ a b as bs hpaired hab htokens =>
          have hjoiner : conjunctionOf? b = conjunctionOf? a := by
            rw [conjunctionOf?, conjunctionOf?, hab.kind_eq (asksForValue_of_other hp)]
          simp only [List.head?_cons, Option.bind_some, hjoiner, List.tail_cons]
          cases hjoin : conjunctionOf? a with
          | none => exact .ok [first] n hp (.cons hpaired hab htokens)
          | some conjunction =>
              have hnext : (p.next r.catalog a).slot = .other := by
                rw [Standing.next, hp, conjunctionOf?_eq_some_iff.1 hjoin]
                cases conjunction <;> rfl
              exact (ih hnext htokens).map (first.withConjunction conjunction :: ·)

theorem inStep_group (hclosed : Closed r s) (hclause : ClausesInStep r s Paired clause clause')
    {opening opening' : Token} (hopening : Paired opening opening') {p : Standing}
    (hp : p.slot = .other) (h : Respelled r.catalog Paired p as bs) :
    InStep r s Paired (·.slot = .other) (readGroup r clause opening ⟨as, n⟩)
      (readGroup (r.on s) clause' opening' ⟨bs, n⟩) := by
  rw [readGroup, readGroup, h.length_eq]
  refine (inStep_sequence hclause as.length hp h).bind fun p as bs clauses n hp h => ?_
  cases h with
  | nil =>
      have hpending : (r.on s).stream.pendingFault = none := hclosed.second
      simp only [hclosed.first, hpending]
      exact .error (.unbalancedParenthesis hopening)
  | @cons _ a b as bs hpaired hab htokens =>
      simp only [hab.kind_eq (asksForValue_of_other hp)]
      by_cases hclosing : a.kind = .closeParen
      · rw [if_pos hclosing, if_pos hclosing]
        refine .ok (groupOf clauses) n ?_ htokens
        rw [Standing.next, hp, hclosing]
        rfl
      · rw [if_neg hclosing, if_neg hclosing]
        exact .error (.unexpectedToken .groupContinuation hpaired)

variable {room : Nat}

/-- A clause without the word `not` is read in step if those in its groups are. -/
theorem inStep_bare (hclosed : Closed r s)
    (hgroup : ∀ room', room = room' + 1 →
      ClausesInStep r s Paired (readClause r room') (readClause (r.on s) room'))
    {p : Standing} (hp : p.slot = .other) (h : Respelled r.catalog Paired p as bs) :
    InStep r s Paired (·.slot = .other) (bareReader room r ⟨as, n⟩)
      (bareReader room (r.on s) ⟨bs, n⟩) := by
  cases h with
  | nil => exact .endFault hclosed .columnOrGroup
  | @cons _ a b as bs hpaired hab htokens =>
      simp only [bareReader, Reading.next, ok_bind, clauseBehind,
        hab.kind_eq (asksForValue_of_other hp)]
      cases hkind : a.kind with
      | openParen =>
          cases room with
          | zero => exact .error (.unexpectedToken .shallowerGroup hpaired)
          | succ room =>
              rw [Standing.next_of_kind hkind (by decide), hp] at htokens
              exact inStep_group hclosed (hgroup room rfl) hpaired rfl htokens
      | identifier => exact inStep_leaf hclosed hpaired hab hp hkind htokens
      | _ => exact .error (.unexpectedToken .columnOrGroup hpaired)

theorem inStep_clause_of_group (hclosed : Closed r s)
    (hgroup : ∀ room', room = room' + 1 →
      ClausesInStep r s Paired (readClause r room') (readClause (r.on s) room')) :
    ClausesInStep r s Paired (readClause r room) (readClause (r.on s) room) := by
  intro p as bs n hp h
  cases h with
  | nil =>
      rw [readClause_eq, readClause_eq]
      exact .endFault hclosed .columnOrGroup
  | @cons _ a b as bs hpaired hab htokens =>
      rw [readClause_cons, readClause_cons, hab.kind_eq (asksForValue_of_other hp)]
      by_cases hnot : a.kind = .not
      · rw [Standing.next_of_kind hnot (by decide), hp] at htokens
        rw [if_pos hnot, if_pos hnot]
        exact (inStep_bare hclosed hgroup rfl htokens).map (Clause.negateIf true)
      · rw [if_neg hnot, if_neg hnot]
        exact inStep_bare hclosed hgroup hp (.cons hpaired hab htokens)

theorem inStep_clause (hclosed : Closed r s) (room : Nat) :
    ClausesInStep r s Paired (readClause r room) (readClause (r.on s) room) := by
  induction room using room_induction with
  | clause room hgroup => exact inStep_clause_of_group hclosed hgroup

theorem inStep_filter (hclosed : Closed r s) {p : Standing} (hp : p.slot = .other)
    (h : Respelled r.catalog Paired p as bs) :
    InStep r s Paired (·.slot = .other) (filterReader r ⟨as, n⟩)
      (filterReader (r.on s) ⟨bs, n⟩) := by
  rw [filterReader, filterReader, sequenceReader, sequenceReader, h.length_eq]
  refine (inStep_sequence (inStep_clause hclosed _) as.length hp h).bind
    fun p as bs clauses n hp h => ?_
  cases h with
  | nil => exact .ok (⟨clauses⟩ : Filter) n hp .nil
  | @cons _ a b as bs hpaired hab htokens =>
      simp only [filterBehind, hab.kind_eq (asksForValue_of_other hp)]
      by_cases hclosing : a.kind = .closeParen
      · rw [if_pos hclosing, if_pos hclosing]
        exact .error (.unbalancedParenthesis hpaired)
      · rw [if_neg hclosing, if_neg hclosing]
        exact .error (.unexpectedToken .filterContinuation hpaired)

/-- Two spellings of a query in which nothing is left open stand for the same filter, or they are
refused for corresponding faults. -/
theorem readTokens_of_respelled (hclosed : Closed r s)
    (h : Respelled r.catalog Paired {} r.stream.tokens s.tokens) :
    (∃ f, readTokens r = .ok f ∧ readTokens (r.on s) = .ok f) ∨
      ∃ fault fault', readTokens r = .error fault ∧ readTokens (r.on s) = .error fault' ∧
        fault.Corresponds Paired r.stream.textLength s.textLength fault' := by
  have hlength : (r.on s).stream.tokens.length = r.stream.tokens.length := h.length_eq
  have hpending : (r.on s).stream.pendingFault = none := hclosed.second
  by_cases htokens : r.stream.tokens = []
  · have htokens' : (r.on s).stream.tokens = [] :=
      List.length_eq_zero_iff.1 (hlength.trans (by rw [htokens]; rfl))
    refine .inl ⟨⟨[]⟩, ?_, ?_⟩
    · rw [readTokens, htokens, hclosed.first]
    · rw [readTokens, htokens', hpending]
  · have htokens' : (r.on s).stream.tokens ≠ [] := by
      rw [← List.length_pos_iff, hlength]
      exact List.length_pos_iff.2 htokens
    rw [readTokens_eq htokens, readTokens_eq htokens']
    rcases (inStep_filter hclosed rfl h).outcome with
      ⟨f, c, d, hread, hread'⟩ | ⟨fault, fault', hread, hread', hfault⟩
    · refine .inl ⟨f, bind_eq_ok_iff.2 ⟨_, hread, ?_⟩, bind_eq_ok_iff.2 ⟨_, hread', ?_⟩⟩
      · exact TokenStream.closed_eq_ok_iff.2 ⟨hclosed.first, rfl⟩
      · exact TokenStream.closed_eq_ok_iff.2 ⟨hpending, rfl⟩
    · exact .inr ⟨fault, fault', bind_eq_error_iff.2 (.inl hread),
        bind_eq_error_iff.2 (.inl hread'), hfault⟩

end Filter

end RecordQuery
