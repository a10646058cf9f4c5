import RecordQuery.Proofs.Filter.Composition
import RecordQuery.Proofs.Filter.Counter
import RecordQuery.Proofs.Grammar.Pairing
import RecordQuery.Proofs.Reading.GroupFaults

/-!
# How deep groups may be nested

A filter is refused for its depth exactly where a group is opened with as many groups open around it
as may be (`Filter.readTokens_eq_error_iff`). Which places a reader reaches at all, and how many
groups are open there, is said by rules like those of the grammar (`Grammar.Reaches`): clauses that
are complete are passed and leave nothing open, whatever groups and lists are in them, and a
parenthesis where a clause begins opens one more group.

So what counts is the nesting of groups, not their number: a text stands in some more pairs of
parentheses exactly as long as these and its own groups are not too deep together
(`Filter.boundsNesting`).
-/

namespace RecordQuery

namespace Grammar

/-- The tokens lead to a place where a clause begins. Of the groups opened in them `opened` are open
there, and `parameters` literals have been read. -/
inductive Reaches (catalog : Catalog) (now : Timestamp) :
    (opened parameters : Nat) → List Token → Prop
  | start : Reaches catalog now 0 0 []
  | enter {opened parameters : Nat} {front negation : List Token} {opening : Token}
      {negated : Bool} :
      Reaches catalog now opened parameters front → opened < maxGroupDepth →
      DerivesNegation negation negated → opening.kind = .openParen →
      Reaches catalog now (opened + 1) parameters (front ++ (negation ++ [opening]))
  | pass {opened parameters depth : Nat} {front tokens : List Token} {joiner : Token}
      {clause : Clause} {conjunction : Conjunction} :
      Reaches catalog now opened parameters front →
      DerivesClause catalog now depth tokens clause → opened + depth ≤ maxGroupDepth →
      catalog.Allows (parameters + clause.parameterCount) →
      joiner.kind = conjunction.tokenKind →
      Reaches catalog now opened (parameters + clause.parameterCount)
        (front ++ (tokens ++ [joiner]))

/-- Among the tokens, `token` opens a group where a clause begins and as many groups are open as may
be. -/
def OpensTooDeep (catalog : Catalog) (now : Timestamp) (tokens : List Token) (token : Token) :
    Prop :=
  ∃ front negation rest negated parameters, tokens = front ++ (negation ++ token :: rest) ∧
    Reaches catalog now maxGroupDepth parameters front ∧ DerivesNegation negation negated ∧
    token.kind = .openParen

variable {catalog : Catalog} {now : Timestamp} {opened parameters : Nat} {front : List Token}

theorem Reaches.opened_le (h : Reaches catalog now opened parameters front) :
    opened ≤ maxGroupDepth := by
  induction h with
  | start => exact Nat.zero_le _
  | enter _ hroom _ _ _ => exact hroom
  | pass _ _ _ _ _ ih => exact ih

theorem Reaches.allows (h : Reaches catalog now opened parameters front) :
    catalog.Allows parameters := by
  induction h with
  | start => exact catalog.allows_zero
  | enter _ _ _ _ ih => exact ih
  | pass _ _ _ allowed _ _ => exact allowed

theorem unpaired_append_of_isPaired {more : List Token} (h : IsPaired more) (ahead : List Token) :
    unpaired (ahead ++ more) = unpaired ahead := by
  rw [unpaired, Unpaired.addAll_append, h]
  rfl

theorem Reaches.unpaired_eq (h : Reaches catalog now opened parameters front) :
    ∃ openings, unpaired front = ⟨openings, []⟩ ∧ openings.length = opened := by
  induction h with
  | start => exact ⟨[], rfl, rfl⟩
  | @enter opened parameters front negation opening negated _ _ derives hopening ih =>
      rcases ih with ⟨openings, hfront, hlength⟩
      refine ⟨opening :: openings, ?_, by rw [List.length_cons, hlength]⟩
      rw [← List.append_assoc, unpaired, Unpaired.addAll_append, ← unpaired,
        unpaired_append_of_isPaired derives.isPaired, hfront]
      exact Unpaired.add_opening _ hopening
  | pass _ derives _ _ joiner ih =>
      have hpassed := derives.isPaired.append (isPaired_cons_joiner joiner isPaired_nil)
      rw [unpaired_append_of_isPaired hpassed]
      exact ih

/-- If tokens with `count` literals stand where there is less room than `depth`, a group among them
is opened too deep. -/
def ExceedsRoom (catalog : Catalog) (now : Timestamp) (depth count : Nat) (tokens : List Token) :
    Prop :=
  ∀ opened parameters front, Reaches catalog now opened parameters front →
    maxGroupDepth < opened + depth → catalog.Allows (parameters + count) →
      ∀ rest, ∃ token, OpensTooDeep catalog now (front ++ (tokens ++ rest)) token

theorem ExceedsRoom.enclose {depth count : Nat} {negation tokens : List Token}
    {opening closing : Token} {negated : Bool} (h : ExceedsRoom catalog now depth count tokens)
    (derives : DerivesNegation negation negated) (hopening : opening.kind = .openParen) :
    ExceedsRoom catalog now (depth + 1) count (negation ++ opening :: (tokens ++ [closing])) := by
  intro opened parameters front reach deep allowed rest
  by_cases hfull : opened = maxGroupDepth
  · subst hfull
    exact ⟨opening, front, negation, tokens ++ [closing] ++ rest, negated, parameters, by simp,
      reach, derives, hopening⟩
  · have hless : opened < maxGroupDepth := Nat.lt_of_le_of_ne reach.opened_le hfull
    rcases h (opened + 1) parameters _ (reach.enter hless derives hopening) (by omega) allowed
      (closing :: rest) with ⟨token, inside⟩
    exact ⟨token, by simpa using inside⟩

mutual

/-- A clause is refused where it is nested deeper than there is room for. -/
theorem DerivesClause.exceedsRoom {depth : Nat} {tokens : List Token} {clause : Clause} :
    DerivesClause catalog now depth tokens clause →
      ExceedsRoom catalog now depth clause.parameterCount tokens
  | .leaf _ _ _ _ _ => fun _ _ _ reach deep _ _ => absurd reach.opened_le (Nat.not_le.2 deep)
  | .single negation opening sequence _ => by
      have inside := sequence.exceedsRoom
      rw [Clause.sequenceParameterCount, Clause.sequenceParameterCount, Nat.add_zero] at inside
      rw [Clause.parameterCount_negateIf]
      exact inside.enclose negation opening
  | .group negation opening sequence _ _ => sequence.exceedsRoom.enclose negation opening

theorem DerivesSequence.exceedsRoom {depth : Nat} {tokens : List Token} {clauses : List Clause} :
    DerivesSequence catalog now depth tokens clauses →
      ExceedsRoom catalog now depth (Clause.sequenceParameterCount clauses) tokens
  | .last clause => by
      rw [Clause.sequenceParameterCount, Clause.sequenceParameterCount, Nat.add_zero]
      exact clause.exceedsRoom
  | @DerivesSequence.join _ _ depth _ _ rest joiner _ _ _ clause hjoiner sequence => by
      intro opened parameters front reach deep allowed behind
      rw [Clause.sequenceParameterCount, Clause.parameterCount_withConjunction,
        ← Nat.add_assoc] at allowed
      have allowedFirst := allowed.mono (Nat.le_add_right _ _)
      by_cases hfirst : maxGroupDepth < opened + depth
      · rcases clause.exceedsRoom opened parameters front reach hfirst allowedFirst
          (joiner :: (rest ++ behind)) with ⟨token, inside⟩
        exact ⟨token, by simpa using inside⟩
      · have passed := reach.pass clause (Nat.not_lt.1 hfirst) allowedFirst hjoiner
        rcases sequence.exceedsRoom opened _ _ passed (by omega) allowed behind with ⟨token, inside⟩
        exact ⟨token, by simpa using inside⟩

end

end Grammar

namespace Filter

open Grammar Reading

variable {r : Reading} {token : Token}

section Refused

variable {opened room : Nat} {read : Cursor → Except Fault (Clause × Cursor)}

/-- If a sequence is refused for its depth, so is one of its clauses, where it stands. -/
theorem opensTooDeep_of_readSequence (hread : ReadsClauses r room read)
    (hroom : opened + room = maxGroupDepth)
    (hclause : ∀ (front : List Token) (c : Cursor),
      Reaches r.catalog r.now opened c.parameters front →
      read c = .error (.unexpectedToken token .shallowerGroup) →
      OpensTooDeep r.catalog r.now (front ++ c.tokens) token)
    {fuel : Nat} {front : List Token} {c : Cursor}
    (reach : Reaches r.catalog r.now opened c.parameters front)
    (h : readSequence read fuel c = .error (.unexpectedToken token .shallowerGroup)) :
    OpensTooDeep r.catalog r.now (front ++ c.tokens) token := by
  induction fuel generalizing front c with
  | zero =>
      rcases bind_eq_error_iff.1 h with h | ⟨_, _, h⟩
      · exact hclause front c reach h
      · cases h
  | succ fuel ih =>
      rcases bind_eq_error_iff.1 h with h | ⟨⟨first, d⟩, hfirst, h⟩
      · exact hclause front c reach h
      rcases (hread c first d).1 hfirst with ⟨taken, depth, hdepth, derives, step⟩
      dsimp only at h
      split at h
      case h_2 => cases h
      next conjunction hjoin =>
      rcases bind_eq_error_iff.1 h with h | ⟨_, _, h⟩
      case inr => cases h
      rcases Option.bind_eq_some_iff.1 hjoin with ⟨joiner, hhead, hjoiner⟩
      rcases List.head?_eq_some_iff.1 hhead with ⟨rest, hrest⟩
      have allowed := step.allows reach.allows
      have hpassed : front ++ c.tokens = front ++ (taken ++ [joiner]) ++ d.tokens.tail := by
        rw [step.tokens, hrest]
        simp
      rw [step.parameters] at allowed
      rw [hpassed]
      refine ih ?_ h
      rw [step.parameters]
      exact reach.pass derives (by omega) allowed (conjunctionOf?_eq_some_iff.1 hjoiner)

theorem opensTooDeep_of_readGroup (hread : ReadsClauses r room read)
    (hroom : opened + room = maxGroupDepth)
    (hclause : ∀ (front : List Token) (c : Cursor),
      Reaches r.catalog r.now opened c.parameters front →
      read c = .error (.unexpectedToken token .shallowerGroup) →
      OpensTooDeep r.catalog r.now (front ++ c.tokens) token)
    {opening : Token} {front : List Token} {c : Cursor}
    (reach : Reaches r.catalog r.now opened c.parameters front)
    (h : readGroup r read opening c = .error (.unexpectedToken token .shallowerGroup)) :
    OpensTooDeep r.catalog r.now (front ++ c.tokens) token := by
  rcases bind_eq_error_iff.1 h with h | ⟨⟨clauses, d⟩, -, h⟩
  · exact opensTooDeep_of_readSequence hread hroom hclause reach h
  · dsimp only at h
    split at h
    · injection h with h
      cases hpending : r.stream.pendingFault with
      | none =>
          rw [hpending] at h
          cases h
      | some fault =>
          rw [hpending] at h
          obtain rfl : fault = .unexpectedToken token .shallowerGroup := h
          exact absurd rfl (TokenStream.not_isOfGroup_of_pending hpending)
    · split at h <;> cases h

theorem opensTooDeep_of_clauseBehind
    (hgroup : ∀ room', room = room' + 1 → ∀ (opened : Nat) (front : List Token) (c : Cursor),
      opened + room' = maxGroupDepth → Reaches r.catalog r.now opened c.parameters front →
      readClause r room' c = .error (.unexpectedToken token .shallowerGroup) →
      OpensTooDeep r.catalog r.now (front ++ c.tokens) token)
    (hroom : opened + room = maxGroupDepth) {front negation : List Token} {negated : Bool}
    {first : Token} {c : Cursor} (reach : Reaches r.catalog r.now opened c.parameters front)
    (derives : DerivesNegation negation negated)
    (h : clauseBehind room first r c = .error (.unexpectedToken token .shallowerGroup)) :
    OpensTooDeep r.catalog r.now (front ++ (negation ++ first :: c.tokens)) token := by
  rw [clauseBehind.eq_def] at h
  split at h
  · next hopening =>
      cases room with
      | zero =>
          cases h
          obtain rfl : opened = maxGroupDepth := hroom
          exact ⟨front, negation, c.tokens, negated, _, rfl, reach, derives, hopening⟩
      | succ room =>
          have inside := opensTooDeep_of_readGroup (readsClauses_readClause r room)
            (show opened + 1 + room = maxGroupDepth by omega)
            (fun front c => hgroup room rfl (opened + 1) front c (by omega))
            (reach.enter (by omega) derives hopening) h
          simpa using inside
  · exact absurd rfl (sparesGroups_leaf first c _ h)
  · cases h

/-- A clause is refused for its depth only where a group is opened too deep. -/
theorem opensTooDeep_of_readClause (room : Nat) :
    ∀ (opened : Nat) (front : List Token) (c : Cursor), opened + room = maxGroupDepth →
      Reaches r.catalog r.now opened c.parameters front →
      readClause r room c = .error (.unexpectedToken token .shallowerGroup) →
      OpensTooDeep r.catalog r.now (front ++ c.tokens) token := by
  induction room using room_induction with
  | clause room hgroup =>
      intro opened front c hroom reach h
      rw [readClause_eq] at h
      rcases bind_eq_error_iff.1 h with h | ⟨⟨negated, first, d⟩, hnegation, h⟩
      · exact absurd rfl (sparesGroups_negation c _ h)
      rcases derivesNegation_of_readNegation hnegation with ⟨negation, derives, step⟩
      rcases bind_eq_error_iff.1 h with h | ⟨_, _, h⟩
      case inr => cases h
      have hparameters : d.parameters = c.parameters := step.parameters
      have htokens : c.tokens = negation ++ first :: d.tokens := by
        rw [step.tokens, List.append_assoc, List.singleton_append]
      rw [htokens]
      rw [← hparameters] at reach
      exact opensTooDeep_of_clauseBehind hgroup hroom reach derives h

theorem opensTooDeep_of_readTokens
    (h : readTokens r = .error (.unexpectedToken token .shallowerGroup)) :
    OpensTooDeep r.catalog r.now r.stream.tokens token := by
  have hpending : r.stream.pendingFault ≠ some (.unexpectedToken token .shallowerGroup) :=
    fun hpending => TokenStream.not_isOfGroup_of_pending hpending rfl
  by_cases htokens : r.stream.tokens = []
  · rw [readTokens, htokens] at h
    dsimp only at h
    split at h
    · next fault hfault =>
        cases h
        exact absurd hfault hpending
    · cases h
  rw [readTokens_eq htokens] at h
  rcases bind_eq_error_iff.1 h with h | ⟨_, _, h⟩
  · rcases bind_eq_error_iff.1 h with h | ⟨⟨clauses, d⟩, -, h⟩
    · have reach : Reaches r.catalog r.now 0 0 [] := .start
      exact opensTooDeep_of_readSequence (readsClauses_readClause r _) (Nat.zero_add _)
        (fun front c => opensTooDeep_of_readClause _ 0 front c (Nat.zero_add _)) reach h
    · rw [filterBehind.eq_def] at h
      dsimp only at h
      split at h
      · cases h
      · split at h <;> cases h
  · exact absurd (TokenStream.closed_eq_error_iff.1 h) hpending

end Refused

section Reached

variable {fault : Fault}

theorem readSequence_of_error {read : Cursor → Except Fault (Clause × Cursor)} {c : Cursor}
    (h : read c = .error fault) (fuel : Nat) : readSequence read fuel c = .error fault := by
  cases fuel <;> simp only [readSequence, h, error_bind]

theorem readClause_of_derivesNegation {room n : Nat} {negation tokens : List Token}
    {negated : Bool} (derives : DerivesNegation negation negated)
    (hopening : token.kind = .openParen)
    (h : clauseBehind room token r ⟨tokens, n⟩ = .error fault) :
    readClause r room ⟨negation ++ token :: tokens, n⟩ = .error fault := by
  have step : r.Advances ⟨negation ++ token :: tokens, n⟩ (negation ++ [token]) 0 ⟨tokens, n⟩ :=
    ⟨by simp, rfl, fun h => absurd rfl h⟩
  rw [readClause_eq, readNegation_of_derivesNegation derives (by simp [hopening]) step, ok_bind, h,
    error_bind]

/-- What is found at a place that is reached is found in the whole: if the clauses that begin there
are at fault, so is the filter. -/
theorem readTokens_of_reaches {opened parameters : Nat} {front : List Token}
    (reach : Reaches r.catalog r.now opened parameters front) {room : Nat} {tokens : List Token}
    (hroom : opened + room = maxGroupDepth) (hne : tokens ≠ [])
    (htokens : r.stream.tokens = front ++ tokens)
    (h : readSequence (readClause r room) tokens.length ⟨tokens, parameters⟩ = .error fault) :
    readTokens r = .error fault := by
  induction reach generalizing room tokens with
  | start =>
      obtain rfl : room = maxGroupDepth := by omega
      have hall : r.stream.tokens = tokens := htokens
      rw [readTokens_eq (hall ▸ hne), filterReader, sequenceReader, hall, h]
      rfl
  | @enter opened parameters front negation opening negated _ hless derives hopening ih =>
      have hgroup : clauseBehind (room + 1) opening r ⟨tokens, parameters⟩ = .error fault := by
        rw [clauseBehind, hopening]
        dsimp only
        rw [readGroup, h]
        rfl
      refine @ih (room + 1) (negation ++ opening :: tokens) (by omega) (by simp)
        (by rw [htokens]; simp) ?_
      exact readSequence_of_error (readClause_of_derivesNegation derives hopening hgroup) _
  | @pass opened parameters depth front taken joiner clause conjunction _ derives hdepth allowed
      hjoiner ih =>
      have step : r.Advances ⟨taken ++ joiner :: tokens, parameters⟩ taken clause.parameterCount
          ⟨joiner :: tokens, parameters + clause.parameterCount⟩ :=
        ⟨rfl, rfl, fun _ => allowed⟩
      have hclause := (readsClauses_readClause r room _ _ _).2
        ⟨taken, depth, by omega, derives, step⟩
      refine @ih room (taken ++ joiner :: tokens) hroom (by simp) (by rw [htokens]; simp) ?_
      refine (readSequence_eq (takesTokens_readClause r room) ⟨_, _⟩).trans ?_
      rw [hclause, ok_bind, sequenceBehind]
      simp only [List.head?_cons, Option.bind_some, conjunctionOf?_eq_some_iff.2 hjoiner,
        List.tail_cons, h, error_bind]

end Reached

/-- A filter is refused for its depth exactly at a group that is opened too deep. -/
theorem readTokens_eq_error_iff :
    readTokens r = .error (.unexpectedToken token .shallowerGroup) ↔
      OpensTooDeep r.catalog r.now r.stream.tokens token := by
  refine ⟨opensTooDeep_of_readTokens, ?_⟩
  rintro ⟨front, negation, rest, negated, parameters, htokens, reach, derives, hopening⟩
  have hfull : clauseBehind 0 token r ⟨rest, parameters⟩ =
      .error (.unexpectedToken token .shallowerGroup) := by
    rw [clauseBehind, hopening]
  refine readTokens_of_reaches reach (Nat.add_zero _) (by simp) htokens ?_
  exact readSequence_of_error (readClause_of_derivesNegation derives hopening hfull) _

end Filter

end RecordQuery
