import RecordQuery.Proofs.Grammar.Reader
import RecordQuery.Proofs.Reading.Decision

/-!
# How tokens decide a filter

Every reader of the grammar comes to a verdict by the tokens ahead (`Reading.Verdict`). A reader
that asks for more tokens is cut into the readers that it goes on with, and its verdict is put
together from theirs: keys, lists and sequences by recursion on the tokens, clauses by the room for
nested groups. A filter is a sequence that leaves nothing behind, so its tokens decide the whole
reading (`Filter.decision`). When a filter is accepted, its literals are the operands among the
tokens (`Filter.length_operands_of_readTokens`).
-/

namespace RecordQuery

namespace Filter

open Reading

variable {r : Reading} {seen : List Token}

def keysReader (column : Column) : Reader (List String) := fun r c =>
  readKeys r column c.tokens >>= fun p => .ok (p.1, { c with tokens := p.2 })

theorem operands_opening {opening : Token} (h : opening.kind = .openBracket) (name : Token) :
    Slot.other.operands [opening, name] = [] := by
  simp [Slot.operands, Slot.next, Slot.asksForValue, h]

theorem operands_segment {opening name : Token} (hopening : opening.kind = .openBracket)
    (hname : name.kind = .string) (closing : Token) :
    Slot.other.operands [opening, name, closing] = [] := by
  simp [Slot.operands, Slot.next, Slot.asksForValue, hopening, hname]

theorem keysReader_segment {column : Column} (hnested : column.nested = true)
    {opening name closing : Token} (hopening : opening.kind = .openBracket)
    (hname : name.kind = .string) (hclosing : closing.kind = .closeBracket) (r : Reading)
    (tokens : List Token) (n : Nat) :
    keysReader column r ⟨opening :: name :: closing :: tokens, n⟩ =
      keysReader column r ⟨tokens, n⟩ >>= fun p => .ok (name.text :: p.1, p.2) := by
  simp only [keysReader, readKeys, hopening, hnested, hname, hclosing, if_true]
  cases readKeys r column tokens <;> rfl

theorem verdict_keys (column : Column) (tokens : List Token) :
    Verdict r seen .other .other (keysReader column) tokens := by
  fun_induction readKeys r column tokens with
  | case1 =>
      refine .pure [] fun r' n more _ hmore => ?_
      rw [List.head?_eq_none_iff.1 hmore]
      rfl
  | case2 opening hopening hnested =>
      refine .ended (.expected .keyName) trivial fun r' n _ => ?_
      simp only [keysReader, readKeys, hopening, hnested, if_true]
      rfl
  | case3 opening hopening hnested name hname =>
      refine .ended (.expected .closeBracket) trivial fun r' n _ => ?_
      rw [operands_opening hopening]
      simp only [keysReader, readKeys, hopening, hnested, hname, if_true]
      rfl
  | case4 opening hopening hnested name hname closing tokens hclosing ih =>
      have hafter : Slot.other.after [opening, name, closing] = .other := by
        simp [Slot.after, Slot.next, hopening, hname, hclosing]
      refine .skipAll
        (fun r' c => keysReader column r' c >>= fun p => .ok (name.text :: p.1, p.2))
        (operands_segment hopening hname closing)
        (fun r' n more _ => keysReader_segment hnested hopening hname hclosing r' more n) ?_
      rw [hafter]
      exact ih.map _
  | case5 opening hopening hnested name hname closing tokens hclosing =>
      refine .refused [opening, name] closing tokens _ rfl
        (Fault.isAt_unexpectedToken closing .closeBracket) fun r' n more _ => ?_
      have hnone := operands_segment hopening hname closing
      simp only [keysReader, List.cons_append, List.nil_append, readKeys, hopening, hnested, hname,
        hclosing, if_true, if_false, hnone]
      rfl
  | case6 opening hopening hnested name tokens hname =>
      refine .refused [opening] name tokens _ rfl (Fault.isAt_unexpectedToken name .keyName)
        fun r' n more _ => ?_
      have hnone := operands_opening hopening name
      rw [keysReader, readKeys.eq_def]
      simp only [List.cons_append, List.nil_append, hopening, hnested, hname, if_true, if_false,
        hnone]
      rfl
  | case7 opening tokens hopening hnested =>
      refine .refuse (Fault.isAt_mismatch column opening .keysNotSupported) (.inl rfl)
        fun r' n more _ => ?_
      rw [keysReader, readKeys.eq_def]
      simp only [hopening, hnested, if_true]
      rfl
  | case8 opening tokens hopening =>
      refine .pure [] fun r' n more _ hmore => ?_
      rcases List.head?_eq_some_iff.1 hmore with ⟨rest, rfl⟩
      rw [keysReader, readKeys.eq_def]
      simp only [hopening, if_false]
      rfl

def listBehind (column : Column) (v : Value) : Reader (List Value) := fun r c =>
  match c.tokens with
  | [] => .error (r.stream.endFault .listContinuation)
  | separator :: tokens =>
    if separator.kind = .comma then
      readValues r column c.parameters tokens >>= fun p => .ok (v :: p.1, p.2)
    else if separator.kind = .closeParen then .ok ([v], ⟨tokens, c.parameters⟩)
    else .error (.unexpectedToken separator .listContinuation)

theorem readValues_eq (column : Column) (c : Cursor) :
    readValues r column c.parameters c.tokens =
      r.value column c >>= fun p => listBehind column p.1 r p.2 := by
  rcases c with ⟨tokens, n⟩
  match tokens with
  | [] => rfl
  | [token] =>
      rw [readValues, value_cons]
      cases r.literal column n token <;> rfl
  | token :: separator :: tokens =>
      rw [readValues, value_cons]
      cases r.literal column n token <;> rfl

theorem verdict_values (column : Column) (tokens : List Token) :
    Verdict r seen .operand .other (fun r c => readValues r column c.parameters c.tokens)
      tokens := by
  have behind (v : Value) (rest : List Token) (hrest : rest <:+ tokens) :
      Verdict r seen .other .other (listBehind column v) rest := by
    refine .next .listContinuation (fun _ _ _ => rfl) fun separator others hothers => ?_
    by_cases hcomma : separator.kind = .comma
    · have hshorter : others.length < tokens.length := by
        have hlength := hrest.length_le
        rw [hothers, List.length_cons] at hlength
        omega
      refine .skip (fun r c => readValues r column c.parameters c.tokens >>= fun p =>
        .ok (v :: p.1, p.2)) rfl (fun r' n more _ => if_pos hcomma) ?_
      rw [hcomma]
      exact (verdict_values column others).map (v :: ·)
    · by_cases hclosing : separator.kind = .closeParen
      · refine .skip (fun _ c => .ok ([v], c)) rfl
          (fun r' n more _ => (if_neg hcomma).trans (if_pos hclosing)) ?_
        rw [hclosing]
        exact .pure [v] fun _ _ _ _ _ => rfl
      · exact .refuse (Fault.isAt_unexpectedToken separator .listContinuation) (.inl rfl)
          fun r' n more _ => (if_neg hcomma).trans (if_neg hclosing)
  simp only [readValues_eq]
  exact .bind (listBehind column) (.value (t := .other) rfl fun _ => rfl) behind
termination_by tokens.length

def insideList (column : Column) : Reader (List Value) := fun r c =>
  match c.tokens with
  | token :: tokens =>
    if token.kind = .closeParen then .error (.unexpectedToken token .someValue)
    else readValues r column c.parameters (token :: tokens)
  | [] => readValues r column c.parameters []

theorem verdict_list (column : Column) (tokens : List Token) :
    Verdict r seen .list .other (fun r => readList r column) tokens := by
  refine .bind (fun _ => insideList column) (.expect .openParen .openParen rfl) fun _ rest _ => ?_
  refine .next .value (fun _ _ _ => rfl) fun token others _ => ?_
  by_cases hclosing : token.kind = .closeParen
  · have hliteral : token.isLiteral = false := by
      rw [Token.isLiteral, hclosing]
      rfl
    exact .refuse (Fault.isAt_unexpectedToken token .someValue) (.inr hliteral)
      fun r' n more _ => if_pos hclosing
  · refine .congr _ (fun r' n more _ hmore => ?_) (verdict_values column _)
    rcases List.head?_eq_some_iff.1 hmore with ⟨behind, rfl⟩
    exact if_neg hclosing

theorem verdict_nullTest (tokens : List Token) :
    Verdict r seen .other .other readNullTest tokens := by
  refine .next .nullOrNotNull (fun _ _ _ => rfl) fun token rest _ => ?_
  by_cases hnot : token.kind = .not
  · refine .skip (fun r c => r.expect .null .null c >>= fun p =>
      .ok (Test.criterion .isNotNull none, p.2)) rfl (fun r' n more _ => if_pos hnot) ?_
    rw [hnot]
    exact .map (fun _ => Test.criterion .isNotNull none) (.expect .null .null rfl)
  · by_cases hnull : token.kind = .null
    · refine .skip (fun _ c => .ok (Test.criterion .isNull none, c)) rfl
        (fun r' n more _ => (if_neg hnot).trans (if_pos hnull)) ?_
      rw [hnull]
      exact .pure _ fun _ _ _ _ _ => rfl
    · exact .refuse (Fault.isAt_unexpectedToken token .null) (.inl rfl)
        fun r' n more _ => (if_neg hnot).trans (if_neg hnull)

theorem verdict_bounds (column : Column) (tokens : List Token) :
    Verdict r seen .bound .other (fun r => readBounds r column) tokens :=
  .bind (fun lower r c => r.expect .and .and c >>= fun p => r.value column p.2 >>= fun q =>
      .ok (Test.between lower q.1, q.2)) (.value (t := .conjunction) rfl fun _ => rfl)
    fun lower _ _ =>
      .bind (fun _ r c => r.value column c >>= fun q => .ok (Test.between lower q.1, q.2))
        (.expect .and .and rfl) fun _ _ _ =>
          .map (fun upper => Test.between lower upper) (.value rfl fun _ => rfl)

def criterionReader (column : Column) (operation : Operation) : Reader Test := fun r c =>
  r.value column c >>= fun p => .ok (.criterion operation (some p.1), p.2)

theorem verdict_criterion (column : Column) (operation : Operation) (tokens : List Token) :
    Verdict r seen .operand .other (criterionReader column operation) tokens :=
  .map (fun v => Test.criterion operation (some v)) (.value rfl fun _ => rfl)

theorem readTest_cons (r : Reading) (column : Column) (token : Token) (tokens : List Token)
    (n : Nat) :
    readTest r column ⟨token :: tokens, n⟩ =
      match token.kind with
      | .operator .is => readNullTest r ⟨tokens, n⟩
      | .operator .between => readBounds r column ⟨tokens, n⟩
      | .operator .oneOf => readList r column ⟨tokens, n⟩ >>= fun p => .ok (.oneOf p.1, p.2)
      | .operator (.text t) =>
        if column.type.supportsTextTests then criterionReader column (.text t) r ⟨tokens, n⟩
        else .error (mismatch column token (.textOnly t))
      | .operator (.relation rel) => criterionReader column (.relation rel) r ⟨tokens, n⟩
      | _ => .error (.unexpectedToken token .operator) := by
  rfl

theorem verdict_test (column : Column) (tokens : List Token) :
    Verdict r seen .other .other (fun r => readTest r column) tokens := by
  refine .next .operator (fun _ _ _ => rfl) fun token rest _ => ?_
  cases hkind : token.kind with
  | operator op =>
      cases op with
      | is =>
          refine .skip readNullTest rfl (fun r' n more _ => ?_) ?_
          · simp only [readTest_cons, hkind]
          · rw [hkind]
            exact verdict_nullTest rest
      | between =>
          refine .skip (fun r => readBounds r column) rfl (fun r' n more _ => ?_) ?_
          · simp only [readTest_cons, hkind]
          · rw [hkind]
            exact verdict_bounds column rest
      | oneOf =>
          refine .skip (fun r c => readList r column c >>= fun p => .ok (.oneOf p.1, p.2)) rfl
            (fun r' n more _ => ?_) ?_
          · simp only [readTest_cons, hkind]
          · rw [hkind]
            exact (verdict_list column rest).map Test.oneOf
      | relation rel =>
          refine .skip (criterionReader column (.relation rel)) rfl (fun r' n more _ => ?_) ?_
          · simp only [readTest_cons, hkind]
          · rw [hkind]
            exact verdict_criterion column (.relation rel) rest
      | text t =>
          cases hsupported : column.type.supportsTextTests with
          | false =>
              refine .refuse (Fault.isAt_mismatch column token (.textOnly t)) (.inl rfl)
                fun r' n more _ => ?_
              simp [readTest_cons, hkind, hsupported]
          | true =>
              refine .skip (criterionReader column (.text t)) rfl (fun r' n more _ => ?_) ?_
              · simp only [readTest_cons, hkind, hsupported, if_true]
              · rw [hkind]
                exact verdict_criterion column (.text t) rest
  | _ =>
      refine .refuse (Fault.isAt_unexpectedToken token .operator) (.inl rfl) fun r' n more _ => ?_
      simp only [readTest_cons, hkind]

theorem readLeaf_eq {name : Token} {column : Column} {r : Reading}
    (hcolumn : r.catalog.resolve name.text = some column) (c : Cursor) :
    readLeaf r name c = keysReader column r c >>= fun p => readTest r column p.2 >>= fun q =>
      .ok (Clause.leaf false none ⟨column, p.1⟩ q.1, q.2) := by
  rw [readLeaf, columnOf_eq_ok_iff.2 hcolumn, ok_bind, keysReader]
  cases readKeys r column c.tokens <;> rfl

theorem verdict_leaf {name : Token} {column : Column}
    (hcolumn : r.catalog.resolve name.text = some column) (tokens : List Token) :
    Verdict r seen .other .other (fun r => readLeaf r name) tokens := by
  have h : Verdict r seen .other .other (fun r c => keysReader column r c >>= fun p =>
      readTest r column p.2 >>= fun q => .ok (Clause.leaf false none ⟨column, p.1⟩ q.1, q.2))
      tokens :=
    .bind (fun keys r c => readTest r column c >>= fun q =>
        .ok (Clause.leaf false none ⟨column, keys⟩ q.1, q.2)) (verdict_keys column tokens)
      fun keys rest _ => (verdict_test column rest).map fun test =>
        Clause.leaf false none ⟨column, keys⟩ test
  exact .congr _ (fun r' n more hr _ => readLeaf_eq (by rw [hr.resolve, hcolumn]) ⟨more, n⟩) h

section Sequence

def TakesTokens (clause : Cursor → Except Fault (Clause × Cursor)) : Prop :=
  ∀ c first c', clause c = .ok (first, c') → c'.tokens.length < c.tokens.length

theorem takesTokens_readClause (r : Reading) (room : Nat) : TakesTokens (readClause r room) := by
  intro c clause c' h
  rcases (readsClauses_readClause r room c clause c').1 h with ⟨taken, _, _, derives, step⟩
  have hpos := List.length_pos_iff.2 derives.tokens_ne_nil
  rw [step.tokens, List.length_append]
  omega

variable {clause : Cursor → Except Fault (Clause × Cursor)}

/-- More fuel than there are tokens makes no difference to a sequence. -/
theorem readSequence_fuel (htakes : TakesTokens clause) {fuel fuel' : Nat} {c : Cursor}
    (h : c.tokens.length ≤ fuel) (h' : c.tokens.length ≤ fuel') :
    readSequence clause fuel c = readSequence clause fuel' c := by
  induction fuel generalizing fuel' c with
  | zero =>
      cases hclause : clause c with
      | error fault => cases fuel' <;> simp only [readSequence, hclause, error_bind]
      | ok p =>
          have := htakes c p.1 p.2 hclause
          omega
  | succ fuel ih =>
      cases hclause : clause c with
      | error fault => cases fuel' <;> simp only [readSequence, hclause, error_bind]
      | ok p =>
          rcases p with ⟨first, d⟩
          have hshorter := htakes c first d hclause
          cases fuel' with
          | zero => omega
          | succ fuel' =>
              have hrest : readSequence clause fuel ⟨d.tokens.tail, d.parameters⟩ =
                  readSequence clause fuel' ⟨d.tokens.tail, d.parameters⟩ := by
                apply ih <;> rw [List.length_tail] <;> omega
              simp only [readSequence, hclause, ok_bind, hrest]

def sequenceBehind (clause : Cursor → Except Fault (Clause × Cursor)) (first : Clause)
    (c : Cursor) : Except Fault (List Clause × Cursor) :=
  match c.tokens.head?.bind conjunctionOf? with
  | some conjunction =>
    readSequence clause c.tokens.tail.length ⟨c.tokens.tail, c.parameters⟩ >>= fun p =>
      .ok (first.withConjunction conjunction :: p.1, p.2)
  | none => .ok ([first], c)

theorem readSequence_eq (htakes : TakesTokens clause) (c : Cursor) :
    readSequence clause c.tokens.length c =
      clause c >>= fun p => sequenceBehind clause p.1 p.2 := by
  rw [readSequence_fuel htakes (Nat.le_refl _) (Nat.le_succ _), readSequence]
  cases hclause : clause c with
  | error fault => rfl
  | ok p =>
      rcases p with ⟨first, d⟩
      have hshorter := htakes c first d hclause
      have hrest : readSequence clause c.tokens.length ⟨d.tokens.tail, d.parameters⟩ =
          readSequence clause d.tokens.tail.length ⟨d.tokens.tail, d.parameters⟩ := by
        refine readSequence_fuel htakes ?_ (Nat.le_refl _)
        rw [List.length_tail]
        omega
      simp only [ok_bind, hrest]
      rfl

end Sequence

def sequenceReader (clause : Reader Clause) : Reader (List Clause) := fun r c =>
  readSequence (clause r) c.tokens.length c

theorem verdict_sequence {clause : Reader Clause} (htakes : ∀ r', TakesTokens (clause r'))
    (hclause : ∀ tokens, tokens ⊆ seen → Verdict r seen .other .other clause tokens)
    {tokens : List Token} (hseen : tokens ⊆ seen) :
    Verdict r seen .other .other (sequenceReader clause) tokens := by
  refine .congr (fun r c => clause r c >>= fun p => sequenceBehind (clause r) p.1 p.2)
    (fun r' n more _ _ => readSequence_eq (htakes r') ⟨more, n⟩) ?_
  refine .bind (fun first r => sequenceBehind (clause r) first) (hclause tokens hseen)
    fun first rest hrest => ?_
  match rest, hrest with
  | [], _ =>
      refine .pure [first] fun r' n more _ hmore => ?_
      rw [List.head?_eq_none_iff.1 hmore]
      rfl
  | token :: others, hrest =>
      cases hjoin : conjunctionOf? token with
      | none =>
          refine .pure [first] fun r' n more _ hmore => ?_
          rcases List.head?_eq_some_iff.1 hmore with ⟨behind, rfl⟩
          simp only [sequenceBehind, List.head?_cons, Option.bind_some, hjoin]
      | some conjunction =>
          have hshorter : others.length < tokens.length := hrest.length_le
          have hslot : Slot.other.next token.kind = .other := by
            rw [conjunctionOf?_eq_some_iff.1 hjoin]
            cases conjunction <;> rfl
          refine .skip (fun r c => sequenceReader clause r c >>= fun p =>
            .ok (first.withConjunction conjunction :: p.1, p.2)) rfl (fun r' n more _ => ?_) ?_
          · simp only [sequenceBehind, List.head?_cons, Option.bind_some, hjoin]
            rfl
          · rw [hslot]
            have hothers : others ⊆ seen := fun other hother =>
              hseen (hrest.subset (List.mem_cons_of_mem token hother))
            exact (verdict_sequence htakes hclause hothers).map
              (first.withConjunction conjunction :: ·)
termination_by tokens.length

theorem verdict_group {clause : Reader Clause} (htakes : ∀ r', TakesTokens (clause r'))
    (hclause : ∀ tokens, tokens ⊆ seen → Verdict r seen .other .other clause tokens)
    {opening : Token} (hopening : opening ∈ seen) (hkind : opening.kind = .openParen)
    {tokens : List Token} (hseen : tokens ⊆ seen) :
    Verdict r seen .other .other (fun r => readGroup r (clause r) opening) tokens := by
  refine .bind (fun clauses r c =>
    match c.tokens with
    | [] => .error (r.stream.pendingFault.getD (.unbalancedParenthesis opening.position))
    | token :: tokens =>
      if token.kind = .closeParen then .ok (groupOf clauses, { c with tokens := tokens })
      else .error (.unexpectedToken token .groupContinuation))
    (verdict_sequence htakes hclause hseen) fun clauses rest _ => ?_
  match rest with
  | [] => exact .ended (.closing opening) ⟨hopening, hkind⟩ fun _ _ _ => rfl
  | token :: others =>
      by_cases hclosing : token.kind = .closeParen
      · refine .skip (fun _ c => .ok (groupOf clauses, c)) rfl
          (fun r' n more _ => if_pos hclosing) ?_
        rw [hclosing]
        exact .pure _ fun _ _ _ _ _ => rfl
      · exact .refuse (Fault.isAt_unexpectedToken token .groupContinuation) (.inl rfl)
          fun r' n more _ => if_neg hclosing

def clauseBehind (room : Nat) (token : Token) : Reader Clause := fun r c =>
  match token.kind with
  | .openParen =>
    match room with
    | 0 => .error (.unexpectedToken token .shallowerGroup)
    | room + 1 => readGroup r (readClause r room) token c
  | .identifier => readLeaf r token c
  | _ => .error (.unexpectedToken token .columnOrGroup)

def bareReader (room : Nat) : Reader Clause := fun r c =>
  r.next .columnOrGroup c >>= fun p => clauseBehind room p.1 r p.2

theorem readClause_eq (r : Reading) (room : Nat) (c : Cursor) :
    readClause r room c =
      readNegation r c >>= fun p => clauseBehind room p.2.1 r p.2.2 >>= fun q =>
        .ok (q.1.negateIf p.1, q.2) := by
  cases room <;>
  · rw [readClause]
    cases readNegation r c with
    | error fault => rfl
    | ok p =>
        rcases p with ⟨negated, ⟨kind, text, position⟩, c⟩
        cases kind <;> rfl

theorem readClause_cons (r : Reading) (room : Nat) (token : Token) (tokens : List Token) (n : Nat) :
    readClause r room ⟨token :: tokens, n⟩ =
      if token.kind = .not then
        bareReader room r ⟨tokens, n⟩ >>= fun p => .ok (p.1.negateIf true, p.2)
      else bareReader room r ⟨token :: tokens, n⟩ := by
  rw [readClause_eq, readNegation, Reading.next, ok_bind]
  by_cases hnot : token.kind = .not
  · simp only [hnot, if_true, bareReader]
    cases r.next .columnOrGroup ⟨tokens, n⟩ <;> rfl
  · simp only [hnot, if_false, ok_bind, Clause.negateIf_false, bareReader, Reading.next]
    cases clauseBehind room token r ⟨tokens, n⟩ <;> rfl

variable {room : Nat}

/-- A group may have been opened by any of the tokens, which is why `seen` holds all of them. -/
theorem verdict_bare
    (hgroup : ∀ room', room = room' + 1 → ∀ tokens, tokens ⊆ seen →
      Verdict r seen .other .other (fun r => readClause r room') tokens)
    {tokens : List Token} (hseen : tokens ⊆ seen) :
    Verdict r seen .other .other (bareReader room) tokens := by
  refine .next .columnOrGroup (fun _ _ _ => rfl) fun token rest htokens => ?_
  subst htokens
  rcases List.cons_subset.1 hseen with ⟨htoken, hrest⟩
  cases hkind : token.kind with
  | openParen =>
      cases room with
      | zero =>
          refine .refuse (Fault.isAt_unexpectedToken token .shallowerGroup) (.inl rfl)
            fun r' n more _ => ?_
          simp only [bareReader, Reading.next, ok_bind, clauseBehind, hkind]
      | succ room =>
          refine .skip (fun r => readGroup r (readClause r room) token) rfl
            (fun r' n more _ => ?_) ?_
          · simp only [bareReader, Reading.next, ok_bind, clauseBehind, hkind]
          · rw [hkind]
            exact verdict_group (fun r' => takesTokens_readClause r' room) (hgroup room rfl)
              htoken hkind hrest
  | identifier =>
      cases hcolumn : r.catalog.resolve token.text with
      | none =>
          have hat : (Fault.unknownColumn token.text token.position).IsAt token := ⟨rfl, trivial⟩
          refine .refuse hat (.inl rfl) fun r' n more hr => ?_
          simp only [bareReader, Reading.next, ok_bind, clauseBehind, hkind, readLeaf,
            Catalog.columnOf, hr.resolve, hcolumn, error_bind]
      | some column =>
          refine .skip (fun r => readLeaf r token) rfl (fun r' n more _ => ?_) ?_
          · simp only [bareReader, Reading.next, ok_bind, clauseBehind, hkind]
          · rw [hkind]
            exact verdict_leaf hcolumn rest
  | _ =>
      refine .refuse (Fault.isAt_unexpectedToken token .columnOrGroup) (.inl rfl)
        fun r' n more _ => ?_
      simp only [bareReader, Reading.next, ok_bind, clauseBehind, hkind]

/-- The verdict on a clause, from those on clauses with less room for groups. -/
theorem verdict_clause_of_group
    (hgroup : ∀ room', room = room' + 1 → ∀ tokens, tokens ⊆ seen →
      Verdict r seen .other .other (fun r => readClause r room') tokens)
    {tokens : List Token} (hseen : tokens ⊆ seen) :
    Verdict r seen .other .other (fun r => readClause r room) tokens := by
  refine .next .columnOrGroup (fun r' n _ => ?_) fun token rest htokens => ?_
  · rw [readClause_eq]
    rfl
  · subst htokens
    by_cases hnot : token.kind = .not
    · refine .skip (fun r c => bareReader room r c >>= fun p => .ok (p.1.negateIf true, p.2)) rfl
        (fun r' n more _ => ?_) ?_
      · rw [readClause_cons, if_pos hnot]
      · rw [hnot]
        exact (verdict_bare hgroup (List.cons_subset.1 hseen).2).map _
    · refine .congr (bareReader room) (fun r' n more _ hmore => ?_) (verdict_bare hgroup hseen)
      rcases List.head?_eq_some_iff.1 hmore with ⟨behind, rfl⟩
      rw [readClause_cons, if_neg hnot]

theorem verdict_clause (r : Reading) (seen : List Token) (room : Nat) :
    ∀ tokens, tokens ⊆ seen →
      Verdict r seen .other .other (fun r => readClause r room) tokens := by
  induction room using room_induction with
  | clause room hgroup => exact fun tokens => verdict_clause_of_group hgroup

/-- What is read behind the clauses of a filter: there may be nothing. -/
def filterBehind (clauses : List Clause) : Reader Filter := fun _ c =>
  match c.tokens with
  | [] => .ok (⟨clauses⟩, c)
  | token :: _ =>
    if token.kind = .closeParen then .error (.unbalancedParenthesis token.position)
    else .error (.unexpectedToken token .filterContinuation)

def filterReader : Reader Filter := fun r c =>
  sequenceReader (fun r => readClause r maxGroupDepth) r c >>= fun p => filterBehind p.1 r p.2

theorem verdict_filter (r : Reading) (tokens : List Token) :
    Verdict r tokens .other .other filterReader tokens := by
  refine .bind filterBehind (verdict_sequence (fun r' => takesTokens_readClause r' _)
    (verdict_clause r tokens _) (List.Subset.refl tokens)) fun clauses rest _ => ?_
  match rest with
  | [] =>
      refine .pure ⟨clauses⟩ fun r' n more _ hmore => ?_
      rw [List.head?_eq_none_iff.1 hmore]
      rfl
  | token :: others =>
      by_cases hclosing : token.kind = .closeParen
      · have hat : (Fault.unbalancedParenthesis token.position).IsAt token := ⟨rfl, hclosing⟩
        exact .refuse hat (.inl rfl) fun r' n more _ => if_pos hclosing
      · exact .refuse (Fault.isAt_unexpectedToken token .filterContinuation) (.inl rfl)
          fun r' n more _ => if_neg hclosing

theorem readTokens_eq {r : Reading} (h : r.stream.tokens ≠ []) :
    readTokens r =
      filterReader r ⟨r.stream.tokens, 0⟩ >>= fun p => r.stream.closed p.1 := by
  rcases List.exists_cons_of_ne_nil h with ⟨token, others, hcons⟩
  simp only [readTokens, hcons, filterReader, sequenceReader]
  cases readSequence (readClause r maxGroupDepth) (token :: others).length
    ⟨token :: others, 0⟩ with
  | error fault => rfl
  | ok p =>
      rcases p with ⟨clauses, rest, n⟩
      cases rest with
      | nil => rfl
      | cons token rest =>
          simp only [ok_bind, filterBehind]
          split <;> rfl

theorem eq_of_filterReader {r : Reading} {tokens : List Token} {f : Filter} {c : Cursor}
    (h : filterReader r ⟨tokens, 0⟩ = .ok (f, c)) : c = ⟨[], f.parameterCount⟩ := by
  rcases bind_eq_ok_iff.1 h with ⟨⟨clauses, rest, n⟩, hclauses, h⟩
  rcases derivesSequence_of_readSequence (readsClauses_readClause r _) hclauses with
    ⟨taken, depth, -, -, step⟩
  have hcount : n = 0 + Clause.sequenceParameterCount clauses := step.parameters
  cases rest with
  | nil =>
      cases h
      rw [hcount, Nat.zero_add]
      rfl
  | cons token rest =>
      simp only [filterBehind] at h
      split at h <;> cases h

theorem length_operands_of_readTokens {r : Reading} {f : Filter} (h : readTokens r = .ok f) :
    (operands r.stream.tokens).length = f.parameterCount := by
  by_cases htokens : r.stream.tokens = []
  · rw [readTokens, htokens] at h
    rw [htokens]
    dsimp only at h
    split at h
    · cases h
    · cases h
      rfl
  · rw [readTokens_eq htokens] at h
    rcases bind_eq_ok_iff.1 h with ⟨⟨g, c⟩, hread, h⟩
    have hcursor := eq_of_filterReader hread
    have hresult : g = f := (TokenStream.closed_eq_ok_iff.1 h).2
    cases verdict_filter r r.stream.tokens with
    | accepted taken rest result hsplit _ run =>
        have hrun := run r 0 rest (.refl r) rfl
        rw [← hsplit, hread] at hrun
        cases eq_ok_of_charge hrun.symm
        injection hcursor with hrest hparameters
        rw [hsplit, hrest, List.append_nil, operands, ← hresult, ← hparameters, Nat.zero_add]
    | refused taken token rest fault hsplit hat run =>
        have hrun := run r 0 rest (.refl r)
        rw [← hsplit, hread] at hrun
        cases eq_ok_of_charge hrun.symm
    | ended lack hlack run =>
        have hrun := run r 0 (.refl r)
        rw [hread] at hrun
        cases eq_ok_of_charge hrun.symm

theorem decision (r : Reading) (tokens : List Token) : Decision r .other readTokens tokens := by
  refine .of_verdict filterReader ⟨[]⟩ (fun r' htokens => ?_) (fun r' => readTokens_eq)
    (fun r' others f c h => ?_) (verdict_filter r tokens)
  · rw [readTokens, htokens]
    rfl
  · rw [eq_of_filterReader h]

theorem parses_ofText (catalog : Catalog) (now : Timestamp) :
    Parses catalog now .filter (ofText catalog now) .other readTokens :=
  ⟨decision, fun _ => rfl⟩

end Filter

end RecordQuery
