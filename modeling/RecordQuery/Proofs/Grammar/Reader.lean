import RecordQuery.Proofs.Grammar.Leaf

/-!
# The reader and the grammar

Reading a filter succeeds exactly on the tokens from which the grammar derives one, and gives that
filter (`ofStream_eq_ok_iff`). As for the parts of a clause, there is one statement for each reader,
about the tokens between where it starts and where it ends. A sequence is read as far as it
goes, so the token behind it must be no conjunction.

Clauses are an induction on the room for nested groups. With `room` left, exactly the clauses in
which groups are nested `room` deep at most are read (`ReadsClauses`), since the clauses in a group
are read with one less. Sequences are an induction on the fuel in one direction and on the
derivation in the other, for any reader of clauses.
-/

namespace RecordQuery

namespace Filter

open Grammar Reading

variable {r : Reading} {c c' : Cursor}

theorem derivesNegation_of_readNegation {negated : Bool} {token : Token}
    (h : readNegation r c = .ok (negated, token, c')) :
    ∃ taken, DerivesNegation taken negated ∧ r.Advances c (taken ++ [token]) 0 c' := by
  rw [readNegation] at h
  rcases bind_eq_ok_iff.1 h with ⟨⟨first, d⟩, hfirst, h⟩
  have step := next_eq_ok_iff.1 hfirst
  dsimp only at h
  split at h
  · next hnot =>
      rcases bind_eq_ok_iff.1 h with ⟨⟨second, e⟩, hsecond, h⟩
      have step' := next_eq_ok_iff.1 hsecond
      cases h
      exact ⟨[first], .present hnot, step.trans step'⟩
  · cases h
    exact ⟨[], .absent, step⟩

theorem readNegation_of_derivesNegation {taken : List Token} {negated : Bool} {token : Token}
    (h : DerivesNegation taken negated) (htoken : token.kind ≠ .not)
    (step : r.Advances c (taken ++ [token]) 0 c') :
    readNegation r c = .ok (negated, token, c') := by
  rw [readNegation, bind_eq_ok_iff]
  cases h with
  | absent =>
      refine ⟨_, next_eq_ok_iff.2 step, ?_⟩
      simp [htoken]
  | @present not hnot =>
      rcases step.split_cons with ⟨d, first, second⟩
      refine ⟨_, next_eq_ok_iff.2 first, ?_⟩
      simp only [hnot, if_true]
      exact bind_eq_ok_iff.2 ⟨_, next_eq_ok_iff.2 second, rfl⟩

theorem conjunctionOf?_eq_some_iff {token : Token} {conjunction : Conjunction} :
    conjunctionOf? token = some conjunction ↔ token.kind = conjunction.tokenKind := by
  rw [conjunctionOf?]
  cases conjunction <;> split <;> simp_all [Conjunction.tokenKind]

def ReadsClauses (r : Reading) (room : Nat)
    (read : Cursor → Except Fault (Clause × Cursor)) : Prop :=
  ∀ c clause c', read c = .ok (clause, c') ↔
    ∃ taken depth, depth ≤ room ∧ DerivesClause r.catalog r.now depth taken clause ∧
      r.Advances c taken clause.parameterCount c'

variable {room : Nat} {read : Cursor → Except Fault (Clause × Cursor)}

theorem derivesSequence_of_readSequence (hread : ReadsClauses r room read) {fuel : Nat}
    {clauses : List Clause} (h : readSequence read fuel c = .ok (clauses, c')) :
    ∃ taken depth, depth ≤ room ∧ DerivesSequence r.catalog r.now depth taken clauses ∧
      r.Advances c taken (Clause.sequenceParameterCount clauses) c' := by
  induction fuel generalizing c c' clauses with
  | zero =>
      rw [readSequence] at h
      rcases bind_eq_ok_iff.1 h with ⟨⟨first, d⟩, hfirst, h⟩
      rcases (hread _ _ _).1 hfirst with ⟨taken, depth, hdepth, derives, step⟩
      cases h
      exact ⟨taken, depth, hdepth, .last derives, step⟩
  | succ fuel ih =>
      rw [readSequence] at h
      rcases bind_eq_ok_iff.1 h with ⟨⟨first, d⟩, hfirst, h⟩
      rcases (hread _ _ _).1 hfirst with ⟨taken, depth, hdepth, derives, step⟩
      dsimp only at h
      split at h
      · next conjunction hjoin =>
          rcases Option.bind_eq_some_iff.1 hjoin with ⟨joiner, hhead, hjoiner⟩
          rcases bind_eq_ok_iff.1 h with ⟨⟨others, e⟩, hothers, h⟩
          rcases ih hothers with ⟨taken', depth', hdepth', derives', step'⟩
          rcases List.head?_eq_some_iff.1 hhead with ⟨rest, hrest⟩
          have skip : r.Advances d [joiner] 0 ⟨d.tokens.tail, d.parameters⟩ :=
            ⟨by simp [hrest], rfl, fun h => absurd rfl h⟩
          cases h
          refine ⟨taken ++ joiner :: taken', max depth depth', Nat.max_le.2 ⟨hdepth, hdepth'⟩,
            .join derives (conjunctionOf?_eq_some_iff.1 hjoiner) derives', ?_⟩
          simpa [Clause.sequenceParameterCount] using (step.trans skip).trans step'
      · cases h
        exact ⟨taken, depth, hdepth, .last derives, step⟩

theorem readSequence_of_derivesSequence (hread : ReadsClauses r room read) :
    ∀ {depth : Nat} {taken : List Token} {clauses : List Clause} {c c' : Cursor} {fuel : Nat},
      DerivesSequence r.catalog r.now depth taken clauses → depth ≤ room →
      r.Advances c taken (Clause.sequenceParameterCount clauses) c' →
      c'.tokens.head?.bind conjunctionOf? = none → clauses.length ≤ fuel + 1 →
      readSequence read fuel c = .ok (clauses, c')
  | depth, taken, _, c, c', fuel, .last derives, hdepth, step, hnext, _ => by
      have hfirst := (hread _ _ _).2 ⟨taken, depth, hdepth, derives, step⟩
      cases fuel with
      | zero => exact bind_eq_ok_iff.2 ⟨_, hfirst, rfl⟩
      | succ fuel =>
          rw [readSequence]
          refine bind_eq_ok_iff.2 ⟨_, hfirst, ?_⟩
          simp [hnext]
  | _, _, _, c, c', fuel, .join derives hjoiner others, hdepth, step, hnext, hfuel => by
      rcases Nat.max_le.1 hdepth with ⟨hfirst, hothers⟩
      rcases Advances.split step with ⟨d, one, rest⟩
      rcases rest.split_cons with ⟨e, skip, two⟩
      cases fuel with
      | zero =>
          have := List.length_pos_iff.2 others.ne_nil
          simp only [List.length_cons] at hfuel
          omega
      | succ fuel =>
          have hclause := (hread _ _ _).2 ⟨_, _, hfirst, derives, by simpa using one⟩
          have hjoin := conjunctionOf?_eq_some_iff.2 hjoiner
          have he : (⟨e.tokens, d.parameters⟩ : Cursor) = e := by
            rw [← Nat.add_zero d.parameters, ← skip.parameters]
          have hrest : readSequence read fuel e = .ok (_, c') :=
            readSequence_of_derivesSequence hread others hothers two hnext (by simpa using hfuel)
          rw [readSequence]
          refine bind_eq_ok_iff.2 ⟨_, hclause, ?_⟩
          simp only [skip.tokens, List.cons_append, List.nil_append, List.head?_cons,
            Option.bind_some, hjoin, List.tail_cons, he]
          exact bind_eq_ok_iff.2 ⟨_, hrest, rfl⟩

theorem length_le_of_derivesSequence {catalog : Catalog} {now : Timestamp} :
    ∀ {depth : Nat} {taken : List Token} {clauses : List Clause},
      DerivesSequence catalog now depth taken clauses → clauses.length ≤ taken.length
  | _, _, _, .last derives => List.length_pos_iff.2 derives.tokens_ne_nil
  | _, _, _, .join _ _ others => by
      have := length_le_of_derivesSequence others
      simp only [List.length_cons, List.length_append]
      omega

theorem readGroup_eq_ok_iff (hread : ReadsClauses r room read) {opening : Token}
    {clause : Clause} :
    readGroup r read opening c = .ok (clause, c') ↔
      ∃ taken closing depth clauses, depth ≤ room ∧
        DerivesSequence r.catalog r.now depth taken clauses ∧ closing.kind = .closeParen ∧
        clause = groupOf clauses ∧
        r.Advances c (taken ++ [closing]) (Clause.sequenceParameterCount clauses) c' := by
  rw [readGroup, bind_eq_ok_iff]
  constructor
  · rintro ⟨⟨clauses, d⟩, hclauses, h⟩
    rcases derivesSequence_of_readSequence hread hclauses with ⟨taken, depth, hdepth, derives, step⟩
    dsimp only at h
    split at h
    · cases h
    · next closing tokens heq =>
        split at h
        · next hclosing =>
            have last : r.Advances d [closing] 0 ⟨tokens, d.parameters⟩ :=
              ⟨heq, rfl, fun h => absurd rfl h⟩
            cases h
            exact ⟨taken, closing, depth, clauses, hdepth, derives, hclosing, rfl,
              step.trans last⟩
        · cases h
  · rintro ⟨taken, closing, depth, clauses, hdepth, derives, hclosing, rfl, step⟩
    obtain ⟨d, first, last⟩ : ∃ d, r.Advances c taken _ d ∧ r.Advances d [closing] 0 c' :=
      Advances.split step
    have hnext : d.tokens.head?.bind conjunctionOf? = none := by
      rw [last.tokens]
      simp [conjunctionOf?, hclosing]
    have hfuel : clauses.length ≤ c.tokens.length + 1 := by
      have := length_le_of_derivesSequence derives
      rw [first.tokens, List.length_append]
      omega
    have hd : (⟨c'.tokens, d.parameters⟩ : Cursor) = c' := by
      rw [← Nat.add_zero d.parameters, ← last.parameters]
    refine ⟨_, readSequence_of_derivesSequence hread derives hdepth first hnext hfuel, ?_⟩
    simp [last.tokens, hclosing, hd]

theorem groupOf_singleton {clause : Clause} (h : clause.conjunction = none) :
    groupOf [clause] = clause :=
  Clause.withConjunction_eq_self h

theorem groupOf_of_two_le {clauses : List Clause} (h : 2 ≤ clauses.length) :
    groupOf clauses = .group false none clauses := by
  match clauses, h with
  | _ :: _ :: _, _ => rfl

theorem derivesClause_of_derivesSequence {catalog : Catalog} {now : Timestamp} {depth : Nat}
    {negation taken : List Token} {opening closing : Token} {negated : Bool}
    {clauses : List Clause} (hnegation : DerivesNegation negation negated)
    (hopening : opening.kind = .openParen)
    (derives : DerivesSequence catalog now depth taken clauses)
    (hclosing : closing.kind = .closeParen) :
    DerivesClause catalog now (depth + 1) (negation ++ opening :: (taken ++ [closing]))
      ((groupOf clauses).negateIf negated) := by
  match clauses, derives with
  | [], derives => exact absurd rfl derives.ne_nil
  | [clause], derives =>
      rw [groupOf_singleton derives.conjunction_of_single]
      exact .single hnegation hopening derives hclosing
  | first :: second :: others, derives =>
      have h := DerivesClause.group hnegation hopening derives (by simp) hclosing
      simpa [groupOf, Clause.negateIf] using h

theorem parameterCount_groupOf (clauses : List Clause) :
    (groupOf clauses).parameterCount = Clause.sequenceParameterCount clauses := by
  match clauses with
  | [] => rfl
  | [clause] => simp [groupOf, Clause.sequenceParameterCount]
  | _ :: _ :: _ => simp [groupOf, Clause.parameterCount]

theorem derivesClause_of_readClause
    (hgroup : ∀ room', room = room' + 1 → ReadsClauses r room' (readClause r room'))
    {clause : Clause} (h : readClause r room c = .ok (clause, c')) :
    ∃ taken depth, depth ≤ room ∧ DerivesClause r.catalog r.now depth taken clause ∧
      r.Advances c taken clause.parameterCount c' := by
  rw [readClause.eq_def] at h
  rcases bind_eq_ok_iff.1 h with ⟨⟨negated, token, d⟩, hnegation, h⟩
  rcases derivesNegation_of_readNegation hnegation with ⟨negation, derivesNegation, first⟩
  dsimp only at h
  split at h
  · next hopening =>
      cases room with
      | zero => cases h
      | succ room =>
          rcases bind_eq_ok_iff.1 h with ⟨⟨body, e⟩, hbody, h⟩
          obtain ⟨taken, closing, depth, clauses, hdepth, derives, hclosing, rfl, second⟩ :=
            (readGroup_eq_ok_iff (hgroup room rfl)).1 hbody
          cases h
          refine ⟨_, depth + 1, Nat.succ_le_succ hdepth,
            derivesClause_of_derivesSequence derivesNegation hopening derives hclosing, ?_⟩
          simpa [parameterCount_groupOf] using first.trans second
  · next hname =>
      rcases bind_eq_ok_iff.1 h with ⟨⟨body, e⟩, hbody, h⟩
      obtain ⟨column, keys, test, keyTokens, testTokens, rfl, hcolumn, derivesKeys, derivesTest,
        second⟩ := readLeaf_eq_ok_iff.1 hbody
      cases h
      have derives := DerivesClause.leaf derivesNegation hname hcolumn derivesKeys derivesTest
      refine ⟨_, 0, Nat.zero_le _, by simpa [Clause.negateIf] using derives, ?_⟩
      simpa [Clause.parameterCount] using first.trans second
  · cases h

/-- Reading a group: what holds whether it has one clause or more. -/
theorem readClause_of_derivesSequence (hread : ReadsClauses r room (readClause r room))
    {depth : Nat} {negation taken : List Token} {opening closing : Token} {negated : Bool}
    {clauses : List Clause} (hnegation : DerivesNegation negation negated)
    (hopening : opening.kind = .openParen) (hdepth : depth ≤ room)
    (derives : DerivesSequence r.catalog r.now depth taken clauses)
    (hclosing : closing.kind = .closeParen)
    (step : r.Advances c (negation ++ opening :: (taken ++ [closing]))
      (Clause.sequenceParameterCount clauses) c') :
    readClause r (room + 1) c = .ok ((groupOf clauses).negateIf negated, c') := by
  obtain ⟨d, first, second⟩ : ∃ d, r.Advances c (negation ++ [opening]) 0 d ∧
      r.Advances d (taken ++ [closing]) (Clause.sequenceParameterCount clauses) c' :=
    Advances.split (by simpa using step)
  have hbody : readGroup r (readClause r room) opening d = .ok (groupOf clauses, c') :=
    (readGroup_eq_ok_iff hread).2
      ⟨taken, closing, depth, clauses, hdepth, derives, hclosing, rfl, second⟩
  rw [readClause.eq_def, bind_eq_ok_iff]
  refine ⟨_, readNegation_of_derivesNegation hnegation (by simp [hopening]) first, ?_⟩
  simp only [hopening]
  exact bind_eq_ok_iff.2 ⟨_, hbody, rfl⟩

theorem readClause_of_derivesClause
    (hgroup : ∀ room', room = room' + 1 → ReadsClauses r room' (readClause r room'))
    {depth : Nat} {taken : List Token} {clause : Clause} (hdepth : depth ≤ room)
    (h : DerivesClause r.catalog r.now depth taken clause)
    (step : r.Advances c taken clause.parameterCount c') :
    readClause r room c = .ok (clause, c') := by
  cases h with
  | @leaf negation keyTokens testTokens name negated column keys test hnegation hname hcolumn
      hkeys htest =>
      obtain ⟨d, first, second⟩ : ∃ d, r.Advances c (negation ++ [name]) 0 d ∧
          r.Advances d (keyTokens ++ testTokens) test.literals.length c' :=
        Advances.split (by simpa [Clause.parameterCount] using step)
      have hleaf := readLeaf_eq_ok_iff.2 ⟨column, keys, test, keyTokens, testTokens, rfl, hcolumn,
        hkeys, htest, second⟩
      rw [readClause.eq_def, bind_eq_ok_iff]
      refine ⟨_, readNegation_of_derivesNegation hnegation (by simp [hname]) first, ?_⟩
      simp only [hname]
      refine bind_eq_ok_iff.2 ⟨_, hleaf, ?_⟩
      simp [Clause.negateIf]
  | @single negation tokens opening closing negated depth body hnegation hopening derives
      hclosing =>
      rcases Nat.exists_eq_add_one_of_ne_zero (Nat.ne_zero_of_lt hdepth) with ⟨room, rfl⟩
      have h := readClause_of_derivesSequence (hgroup room rfl) hnegation hopening
        (Nat.le_of_succ_le_succ hdepth) derives hclosing
        (by simpa [Clause.sequenceParameterCount] using step)
      rwa [groupOf_singleton derives.conjunction_of_single] at h
  | @group negation tokens opening closing negated depth clauses hnegation hopening derives two
      hclosing =>
      rcases Nat.exists_eq_add_one_of_ne_zero (Nat.ne_zero_of_lt hdepth) with ⟨room, rfl⟩
      have h := readClause_of_derivesSequence (hgroup room rfl) hnegation hopening
        (Nat.le_of_succ_le_succ hdepth) derives hclosing
        (by simpa [Clause.parameterCount] using step)
      rw [groupOf_of_two_le two] at h
      simpa [Clause.negateIf] using h

/-- Groups are read with less room than the clause that they are in. So what is shown of a clause
from what holds inside its groups, if it may have any, holds whatever room there is. -/
theorem room_induction {motive : Nat → Prop}
    (clause : ∀ room, (∀ room', room = room' + 1 → motive room') → motive room) (room : Nat) :
    motive room := by
  induction room with
  | zero => exact clause 0 fun _ h => absurd h.symm (Nat.succ_ne_zero _)
  | succ room ih =>
      refine clause (room + 1) fun room' h => ?_
      obtain rfl : room = room' := Nat.succ.inj h
      exact ih

/-- Reading a clause with room for nested groups succeeds exactly on the clauses in which groups are
nested that deep at most. -/
theorem readsClauses_readClause (r : Reading) (room : Nat) :
    ReadsClauses r room (readClause r room) := by
  induction room using room_induction with
  | clause room hgroup =>
      intro c clause c'
      exact ⟨derivesClause_of_readClause hgroup, fun ⟨_, _, hdepth, derives, step⟩ =>
        readClause_of_derivesClause hgroup hdepth derives step⟩

theorem derivesFilter_of_readTokens {f : Filter} (h : readTokens r = .ok f) :
    r.stream.pendingFault = none ∧ DerivesFilter r.catalog r.now r.stream.tokens f := by
  rw [readTokens] at h
  split at h
  · next htokens =>
      split at h
      · cases h
      · next hpending =>
          cases h
          exact ⟨hpending, .inl ⟨htokens, rfl⟩, fun _ _ => Nat.zero_le _⟩
  · next token tokens htokens =>
      rcases bind_eq_ok_iff.1 h with ⟨⟨clauses, c⟩, hclauses, h⟩
      obtain ⟨taken, depth, hdepth, derives, step⟩ :=
        derivesSequence_of_readSequence (readsClauses_readClause r _) hclauses
      dsimp only at h
      split at h
      · split at h <;> cases h
      · next hend =>
          split at h
          · cases h
          · next hpending =>
              cases h
              have htaken : r.stream.tokens = taken := by
                rw [htokens, ← List.append_nil taken, ← hend]
                exact step.tokens
              have hcount : c.parameters = Clause.sequenceParameterCount clauses := by
                simpa using step.parameters
              rw [htaken]
              refine ⟨hpending, .inr ⟨depth, hdepth, derives⟩, ?_⟩
              rw [Filter.parameterCount, ← hcount]
              exact step.allows r.catalog.allows_zero

theorem readTokens_of_derivesFilter {f : Filter} (hpending : r.stream.pendingFault = none)
    (h : DerivesFilter r.catalog r.now r.stream.tokens f) : readTokens r = .ok f := by
  rcases f with ⟨clauses⟩
  rw [readTokens]
  rcases h.clauses with ⟨htokens, hclauses⟩ | ⟨depth, hdepth, derives⟩
  · obtain rfl : clauses = [] := hclauses
    simp [htokens, hpending]
  · obtain ⟨token, tokens, htokens⟩ := List.exists_cons_of_ne_nil derives.tokens_ne_nil
    have step : r.Advances ⟨token :: tokens, 0⟩ r.stream.tokens
        (Clause.sequenceParameterCount clauses)
        ⟨[], Clause.sequenceParameterCount clauses⟩ :=
      ⟨by simp [htokens], by simp, fun _ => h.allowed⟩
    have hfuel : clauses.length ≤ (token :: tokens).length + 1 := by
      have := length_le_of_derivesSequence derives
      rw [htokens] at this
      exact Nat.le_succ_of_le this
    have hread := readSequence_of_derivesSequence (readsClauses_readClause r _) derives hdepth
      step rfl hfuel
    simp only [htokens]
    exact bind_eq_ok_iff.2 ⟨_, hread, by simp [hpending]⟩

theorem ofStream_eq_ok_iff_readTokens {catalog : Catalog} {now : Timestamp}
    {stream : TokenStream} {f : Filter} :
    ofStream catalog now stream = .ok f ↔ readTokens ⟨catalog, now, stream⟩ = .ok f := by
  rw [ofStream]
  cases readTokens ⟨catalog, now, stream⟩ with
  | error fault => exact iff_of_false nofun nofun
  | ok g =>
      constructor
      · intro h
        cases h
        rfl
      · intro h
        cases h
        rfl

theorem ofText_eq_ok_iff {catalog : Catalog} {now : Timestamp} {text : String} {f : Filter} :
    ofText catalog now text = .ok f ↔
      (Scan.of 0 text.toList).opened = none ∧
        DerivesFilter catalog now (Scan.of 0 text.toList).tokens f := by
  rw [ofText, ofStream_eq_ok_iff_readTokens, ← TokenStream.opened_eq_none_iff,
    ← TokenStream.pendingFault_eq_none_iff]
  exact ⟨derivesFilter_of_readTokens, fun h => readTokens_of_derivesFilter h.1 h.2⟩

/-- The tokens of a stream are read as a filter if and only if nothing is left open in the text and
the grammar derives that filter from all of them. -/
theorem ofStream_eq_ok_iff {catalog : Catalog} {now : Timestamp} {stream : TokenStream}
    {f : Filter} :
    ofStream catalog now stream = .ok f ↔
      stream.unterminated = none ∧ DerivesFilter catalog now stream.tokens f := by
  rw [ofStream_eq_ok_iff_readTokens, ← TokenStream.pendingFault_eq_none_iff]
  exact ⟨derivesFilter_of_readTokens, fun h => readTokens_of_derivesFilter h.1 h.2⟩

end Filter

namespace Grammar

/-- The grammar is unambiguous: tokens stand for one filter at most. -/
theorem DerivesFilter.unique {catalog : Catalog} {now : Timestamp} {tokens : List Token}
    {f g : Filter} (hf : DerivesFilter catalog now tokens f)
    (hg : DerivesFilter catalog now tokens g) : f = g := by
  have read : ∀ {h : Filter}, DerivesFilter catalog now tokens h →
      Filter.readTokens ⟨catalog, now, ⟨"", .filter, tokens, false, false, 0, 0⟩⟩ = .ok h :=
    fun derives => Filter.readTokens_of_derivesFilter rfl derives
  have same := (read hf).symm.trans (read hg)
  injection same

end Grammar

end RecordQuery
