import RecordQuery.Proofs.Grammar.Pairing
import RecordQuery.Proofs.Reading.GroupFaults
import RecordQuery.Proofs.Reading.OpenEnd

/-!
# Where errors are reported

An error is reported at a place in the text: at one of its tokens, where something is left open, or
at the end if more is expected there (`Reading.Parses.isPlaced`).

A parenthesis is only reported if it has no partner. The readers of what stands inside a clause
never report one (`Filter.sparesGroups_leaf`). A group does if the text ends ahead of its
closing parenthesis, and then all that stands behind the opening one has been derived and is paired
in itself, so no group further inside is open (`Filter.leftOpen_of_readClause`). A filter does if a
closing parenthesis follows on its clauses, which are paired in themselves too.
-/

namespace RecordQuery

/-- A parenthesis without a partner stands at a place. If it opens a group, that is the innermost
one that is not closed. -/
def IsUnpairedAt (tokens : List Token) (place : Nat) : Prop :=
  ∃ token ∈ tokens, token.position = place ∧
    (token.kind = .openParen ∧ (unpaired tokens).openings.head? = some token ∨
      token.kind = .closeParen ∧ token ∈ (unpaired tokens).closings)

/-- The place of a fault is where something is left open, the end of the text, or that of a
token. -/
def Fault.IsIn (text : String) : Fault → Prop
  | .unterminatedLiteral place => (Scan.of 0 text.toList).opened = some (.quote, place)
  | .unterminatedKey place => (Scan.of 0 text.toList).opened = some (.key, place)
  | .unexpectedEnd _ place => place = text.toList.length
  | fault => ∃ token ∈ (Scan.of 0 text.toList).tokens, token.position = fault.position

/-- An error of a text is reported where there is something to report. -/
structure QueryError.IsPlaced (e : QueryError) (text : String) (context : QueryContext) :
    Prop where
  text_eq : e.text = text
  context_eq : e.context = context
  place : e.fault.IsIn text
  position_le : e.position ≤ text.toList.length
  /-- Nothing but an end that comes too early is reported at the end. -/
  of_position_eq : e.position = text.toList.length →
    ∃ expected, e.fault = .unexpectedEnd expected text.toList.length
  parenthesis : ∀ place, e.fault = .unbalancedParenthesis place →
    IsUnpairedAt (Scan.of 0 text.toList).tokens place

namespace Fault

variable {text : String} {fault : Fault}

theorem isIn_of_isAt {token : Token} (htoken : token ∈ (Scan.of 0 text.toList).tokens)
    (hat : fault.IsAt token) : fault.IsIn text := by
  cases fault with
  | unterminatedLiteral _ | unterminatedKey _ | unexpectedEnd _ _ => exact hat.2.elim
  | _ => exact ⟨token, htoken, hat.1.symm⟩

theorem isIn_of_pendingFault {context : QueryContext}
    (h : (TokenStream.ofText text context).pendingFault = some fault) : fault.IsIn text := by
  rw [TokenStream.pendingFault_ofText, Option.map_eq_some_iff] at h
  rcases h with ⟨⟨what, place⟩, hopened, rfl⟩
  cases what <;> exact hopened

theorem isIn_lackFault {lack : Lack} (hlack : lack.IsOf (Scan.of 0 text.toList).tokens)
    (context : QueryContext) : ((TokenStream.ofText text context).lackFault lack).IsIn text := by
  cases hpending : (TokenStream.ofText text context).pendingFault with
  | some fault =>
      rw [TokenStream.lackFault_of_pending hpending]
      exact isIn_of_pendingFault hpending
  | none =>
      cases lack with
      | expected e =>
          rw [TokenStream.lackFault, TokenStream.endFault, hpending]
          rfl
      | closing opening =>
          rw [TokenStream.lackFault, hpending]
          exact ⟨opening, hlack.1, rfl⟩

theorem IsIn.position_cases (h : fault.IsIn text) :
    fault.position < text.toList.length ∨
      ∃ expected, fault = .unexpectedEnd expected text.toList.length := by
  have hopened {what : Opening} {place : Nat}
      (hplace : (Scan.of 0 text.toList).opened = some (what, place)) :
      place < text.toList.length := by
    have := (Scan.place_of_opened hplace).2
    omega
  have htokens {place : Nat}
      (hplace : ∃ token ∈ (Scan.of 0 text.toList).tokens, token.position = place) :
      place < text.toList.length := by
    rcases hplace with ⟨token, htoken, rfl⟩
    have := ((Scan.places 0 text.toList).2 token htoken).1.2
    omega
  cases fault with
  | unterminatedLiteral _ | unterminatedKey _ => exact .inl (hopened h)
  | unexpectedEnd expected place => exact .inr ⟨expected, congrArg _ h⟩
  | _ => exact .inl (htokens h)

end Fault

theorem TokenStream.pendingFault_ne (stream : TokenStream) (place : Nat) :
    stream.pendingFault ≠ some (.unbalancedParenthesis place) :=
  fun h => not_isOfGroup_of_pending h trivial

namespace Reading

variable {β : Type} {r : Reading} {s : Slot} {read : Reading → Except Fault β}

theorem charge_operands_error {tokens : List Token} {fault found : Fault}
    (h : r.charge 0 (s.operands tokens) (.error fault : Except Fault β) = .error found) :
    found = fault ∨ ∃ token ∈ tokens, found.IsAt token := by
  rcases charge_error_eq (β := β) r (s.operands tokens) fault with
    ⟨found', hfound, hcases⟩
  rw [hfound] at h
  cases h
  exact hcases.imp_right fun ⟨operand, hoperand, hat⟩ =>
    ⟨operand, (s.operands_sublist tokens).mem hoperand, hat⟩

/-- A reading fails at a token, for what is left open, or where the tokens end too early. -/
theorem Decision.fault_cases (h : Decision r s read r.stream.tokens) {fault : Fault}
    (hread : read r = .error fault) :
    (∃ token ∈ r.stream.tokens, fault.IsAt token) ∨ r.stream.pendingFault = some fault ∨
      ∃ lack : Lack, lack.IsOf r.stream.tokens ∧ fault = r.stream.lackFault lack := by
  cases h with
  | refused taken token rest found hsplit hat run =>
      left
      rw [run r rest (.refl r) hsplit] at hread
      rw [hsplit]
      rcases charge_operands_error hread with rfl | ⟨other, hother, hat'⟩
      · exact ⟨token, by simp, hat⟩
      · exact ⟨other, by rw [List.append_cons]; exact List.mem_append_left _ hother, hat'⟩
  | ended lack hlack run =>
      rw [run r (.refl r) rfl] at hread
      rcases charge_operands_error hread with rfl | hat
      · exact .inr (.inr ⟨lack, hlack, rfl⟩)
      · exact .inl hat
  | complete result run =>
      rw [run r (.refl r) rfl] at hread
      cases hpending : r.stream.pendingFault with
      | none =>
          rw [TokenStream.closed, hpending] at hread
          rcases charge_eq_self_or_error (β := β) r (s.operands r.stream.tokens) with
            hself | ⟨m, token, -, htoken, hover⟩
          · rw [hself] at hread
            cases hread
          · rw [hover] at hread
            cases hread
            have hmem := (s.operands_sublist _).mem (List.mem_of_getElem? htoken)
            exact .inl ⟨token, hmem, rfl, trivial⟩
      | some pending =>
          rw [TokenStream.closed, hpending] at hread
          rcases charge_operands_error hread with rfl | hat
          · exact .inr (.inl rfl)
          · exact .inl hat

theorem Parses.isPlaced {catalog : Catalog} {now : Timestamp} {context : QueryContext}
    {parse : String → Except QueryError β} (h : Parses catalog now context parse s read)
    (hparenthesis : ∀ text place,
      read ⟨catalog, now, .ofText text context⟩ = .error (.unbalancedParenthesis place) →
        IsUnpairedAt (Scan.of 0 text.toList).tokens place)
    {text : String} {e : QueryError} (hparse : parse text = .error e) :
    e.IsPlaced text context := by
  rw [h.run, mapError_eq_error_iff] at hparse
  rcases hparse with ⟨fault, hread, rfl⟩
  have hplace : fault.IsIn text := by
    rcases (h.decision ⟨catalog, now, .ofText text context⟩ _).fault_cases hread with
      ⟨token, htoken, hat⟩ | hpending | ⟨lack, hlack, rfl⟩
    · exact Fault.isIn_of_isAt htoken hat
    · exact Fault.isIn_of_pendingFault hpending
    · exact Fault.isIn_lackFault hlack context
  have hposition := hplace.position_cases
  refine ⟨rfl, rfl, hplace, ?_, fun heq => ?_, fun place heq => ?_⟩
  · rcases hposition with hlt | ⟨expected, rfl⟩
    · exact Nat.le_of_lt hlt
    · exact Nat.le_refl _
  · exact hposition.resolve_left fun hlt => Nat.ne_of_lt hlt heq
  · obtain rfl : fault = .unbalancedParenthesis place := heq
    exact hparenthesis text place hread

def BlamesNoParenthesis (x : Except Fault β) : Prop :=
  ∀ place, x ≠ .error (.unbalancedParenthesis place)

theorem SparesGroups.blamesNoParenthesis {x : Except Fault β} (h : SparesGroups x) :
    BlamesNoParenthesis x :=
  fun _ hx => h _ hx trivial

end Reading

namespace Filter

open Reading Grammar

variable {r : Reading}

/-- The tokens end behind a parenthesis at a place that is not closed, and all that stand behind it
are paired. -/
def LeftOpen (tokens : List Token) (place : Nat) : Prop :=
  ∃ ahead opening behind, tokens = ahead ++ opening :: behind ∧ opening.kind = .openParen ∧
    opening.position = place ∧ IsPaired behind

theorem LeftOpen.of_suffix {tokens rest : List Token} {place : Nat} (h : LeftOpen rest place)
    (hrest : rest <:+ tokens) : LeftOpen tokens place := by
  rcases h with ⟨ahead, opening, behind, rfl, hopening⟩
  rcases hrest with ⟨first, rfl⟩
  exact ⟨first ++ ahead, opening, behind, (List.append_assoc _ _ _).symm, hopening⟩

theorem LeftOpen.isUnpairedAt {tokens : List Token} {place : Nat} (h : LeftOpen tokens place) :
    IsUnpairedAt tokens place := by
  rcases h with ⟨ahead, opening, behind, rfl, hopening, hplace, hpaired⟩
  exact ⟨opening, by simp, hplace, .inl ⟨hopening, head?_openings_of_isPaired hopening hpaired⟩⟩

variable {room : Nat} {place : Nat}

/-- If a sequence is refused for a parenthesis, so is one of its clauses. -/
theorem leftOpen_of_readSequence {read : Cursor → Except Fault (Clause × Cursor)}
    (hread : ReadsClauses r room read)
    (hopen : ∀ c, read c = .error (.unbalancedParenthesis place) → LeftOpen c.tokens place)
    {fuel : Nat} {c : Cursor}
    (h : readSequence read fuel c = .error (.unbalancedParenthesis place)) :
    LeftOpen c.tokens place := by
  induction fuel generalizing c with
  | zero =>
      rcases bind_eq_error_iff.1 h with h | ⟨_, _, h⟩
      · exact hopen c h
      · cases h
  | succ fuel ih =>
      rcases bind_eq_error_iff.1 h with h | ⟨⟨first, d⟩, hfirst, h⟩
      · exact hopen c h
      · rcases (hread c first d).1 hfirst with ⟨taken, _, _, _, step⟩
        dsimp only at h
        split at h
        · rcases bind_eq_error_iff.1 h with h | ⟨_, _, h⟩
          · have hrest : d.tokens <:+ c.tokens := step.tokens ▸ List.suffix_append _ _
            exact (ih h).of_suffix ((List.tail_suffix _).trans hrest)
          · cases h
        · cases h

/-- A group is refused for a parenthesis if it is not closed itself, or if one in it is not. -/
theorem leftOpen_of_readGroup {read : Cursor → Except Fault (Clause × Cursor)}
    (hread : ReadsClauses r room read)
    (hopen : ∀ c, read c = .error (.unbalancedParenthesis place) → LeftOpen c.tokens place)
    {opening : Token} (hopening : opening.kind = .openParen) {c : Cursor}
    (h : readGroup r read opening c = .error (.unbalancedParenthesis place)) :
    LeftOpen (opening :: c.tokens) place := by
  rcases bind_eq_error_iff.1 h with h | ⟨⟨clauses, d⟩, hclauses, h⟩
  · exact (leftOpen_of_readSequence hread hopen h).of_suffix (List.suffix_cons _ _)
  · rcases derivesSequence_of_readSequence hread hclauses with ⟨taken, _, _, derives, step⟩
    dsimp only at h
    split at h
    · next hend =>
        have htaken : c.tokens = taken := by rw [step.tokens, hend, List.append_nil]
        have hplace : opening.position = place := by
          injection h with h
          cases hpending : r.stream.pendingFault with
          | none =>
              rw [hpending] at h
              injection h
          | some fault =>
              rw [hpending] at h
              obtain rfl : fault = .unbalancedParenthesis place := h
              exact absurd hpending (r.stream.pendingFault_ne place)
        exact ⟨[], opening, taken, by rw [htaken]; rfl, hopening, hplace, derives.isPaired⟩
    · split at h <;> cases h

theorem leftOpen_of_clauseBehind
    (hgroup : ∀ room', room = room' + 1 → ∀ c,
      readClause r room' c = .error (.unbalancedParenthesis place) → LeftOpen c.tokens place)
    {token : Token} {c : Cursor}
    (h : clauseBehind room token r c = .error (.unbalancedParenthesis place)) :
    LeftOpen (token :: c.tokens) place := by
  rw [clauseBehind.eq_def] at h
  split at h
  · next hopening =>
      cases room with
      | zero => cases h
      | succ room =>
          exact leftOpen_of_readGroup (readsClauses_readClause r room) (hgroup room rfl) hopening h
  · exact absurd h ((sparesGroups_leaf token c).blamesNoParenthesis place)
  · cases h

theorem leftOpen_of_readClause_of_group
    (hgroup : ∀ room', room = room' + 1 → ∀ c,
      readClause r room' c = .error (.unbalancedParenthesis place) → LeftOpen c.tokens place)
    {c : Cursor} (h : readClause r room c = .error (.unbalancedParenthesis place)) :
    LeftOpen c.tokens place := by
  rw [readClause_eq] at h
  rcases bind_eq_error_iff.1 h with h | ⟨⟨negated, token, d⟩, hnegation, h⟩
  · exact absurd h ((sparesGroups_negation c).blamesNoParenthesis place)
  · rcases derivesNegation_of_readNegation hnegation with ⟨negation, _, first⟩
    have hrest : token :: d.tokens <:+ c.tokens :=
      ⟨negation, by rw [first.tokens, List.append_assoc]; rfl⟩
    rcases bind_eq_error_iff.1 h with h | ⟨_, _, h⟩
    · exact (leftOpen_of_clauseBehind hgroup h).of_suffix hrest
    · cases h

/-- A clause is refused for a parenthesis only if that opens a group and the tokens end in it. -/
theorem leftOpen_of_readClause (room : Nat) :
    ∀ c, readClause r room c = .error (.unbalancedParenthesis place) → LeftOpen c.tokens place := by
  induction room using room_induction with
  | clause room hgroup => exact fun c => leftOpen_of_readClause_of_group hgroup

/-- A filter is refused for a parenthesis only if that has no partner. -/
theorem isUnpairedAt_of_readTokens
    (h : readTokens r = .error (.unbalancedParenthesis place)) :
    IsUnpairedAt r.stream.tokens place := by
  have hread := readsClauses_readClause r maxGroupDepth
  by_cases htokens : r.stream.tokens = []
  · rw [readTokens, htokens] at h
    dsimp only at h
    split at h
    · next fault hpending =>
        cases h
        exact absurd hpending (r.stream.pendingFault_ne place)
    · cases h
  · rw [readTokens_eq htokens] at h
    rcases bind_eq_error_iff.1 h with h | ⟨_, _, h⟩
    · rcases bind_eq_error_iff.1 h with h | ⟨⟨clauses, d⟩, hclauses, h⟩
      · exact (leftOpen_of_readSequence hread (leftOpen_of_readClause _) h).isUnpairedAt
      · rcases derivesSequence_of_readSequence hread hclauses with ⟨taken, _, _, derives, step⟩
        have htaken : r.stream.tokens = taken ++ d.tokens := step.tokens
        rw [htaken]
        simp only [filterBehind] at h
        split at h
        · cases h
        · next closing rest hrest =>
            split at h
            · next hclosing =>
                cases h
                rw [hrest]
                exact ⟨closing, by simp, rfl,
                  .inr ⟨hclosing, mem_closings_of_isPaired derives.isPaired hclosing⟩⟩
            · cases h
    · exact absurd (TokenStream.closed_eq_error_iff.1 h) (r.stream.pendingFault_ne place)

end Filter

namespace SortKey

open Reading

theorem blamesNoParenthesis_tokens (catalog : Catalog) (stream : TokenStream) :
    BlamesNoParenthesis (readTokens catalog stream) :=
  (sparesGroups_tokens catalog stream).blamesNoParenthesis

end SortKey

/-- An error in a filter or in an order names the text and what it was read as, and it is reported
at a place in the text where there is something to report. A parenthesis that is reported has no
partner. -/
theorem isPlaced_of_ofText (catalog : Catalog) (now : Timestamp) (text : String) :
    (∀ e, Filter.ofText catalog now text = .error e → e.IsPlaced text .filter) ∧
      ∀ e, SortKey.ofText catalog text = .error e → e.IsPlaced text .orderBy := by
  refine ⟨fun e h => (Filter.parses_ofText catalog now).isPlaced (fun _ _ hread => ?_) h,
    fun e h => (SortKey.parses_ofText catalog now).isPlaced (fun _ place hread => ?_) h⟩
  · exact Filter.isUnpairedAt_of_readTokens hread
  · exact absurd hread (SortKey.blamesNoParenthesis_tokens catalog _ place)

theorem isPlaced_of_ofText_open_group :
    QueryError.IsPlaced ⟨"(id in (1) or (id=2)", .filter, .unbalancedParenthesis 0⟩
        "(id in (1) or (id=2)" .filter ∧
      QueryError.IsPlaced ⟨"id, ", .orderBy, .unexpectedEnd .columnName 4⟩ "id, " .orderBy := by
  have hfilter : Filter.ofText Filter.staff ⟨0, 0⟩ "(id in (1) or (id=2)" =
      .error ⟨"(id in (1) or (id=2)", .filter, .unbalancedParenthesis 0⟩ := by
    cbv
  have horder : SortKey.ofText Filter.staff "id, " =
      .error ⟨"id, ", .orderBy, .unexpectedEnd .columnName 4⟩ := by
    cbv
  exact ⟨(isPlaced_of_ofText Filter.staff ⟨0, 0⟩ _).1 _ hfilter,
    (isPlaced_of_ofText Filter.staff ⟨0, 0⟩ _).2 _ horder⟩

end RecordQuery
