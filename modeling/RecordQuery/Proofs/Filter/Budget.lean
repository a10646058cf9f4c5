import RecordQuery.Proofs.Filter.Verdict
import RecordQuery.Proofs.Filter.WellFormed

/-!
# The limit on literals

A limit on the literals of a filter makes no difference but to refuse the texts that have more. For
every text, what comes of it under a limit follows from what comes of it without one
(`Filter.limitIsExact`): an accepted text is accepted with the same filter if there are no more
literals in that than are allowed, and else refused at the first operand that is too many; a refused
text is refused for the same fault, unless that many operands stand ahead of it.

How far a text is read before a fault is found is its `QueryError.reach`. A group that is never
closed is reported where it is opened, but found at the end of the text.
-/

namespace RecordQuery

/-- The place up to which a text is read before an error is found. It is that of the error, except
that a group without an end is found at the end of the text. -/
def QueryError.reach (e : QueryError) : Nat :=
  match e.fault with
  | .unbalancedParenthesis position =>
    if (Scan.of 0 e.text.toList).tokens.any fun token =>
        token.kind = .openParen ∧ token.position = position then
      e.text.toList.length
    else position
  | fault => fault.position

namespace QueryError

variable {text : String} {context : QueryContext}

theorem reach_of_isAt {fault : Fault} {token : Token}
    (htoken : token ∈ (Scan.of 0 text.toList).tokens) (hat : fault.IsAt token) :
    reach ⟨text, context, fault⟩ = token.position := by
  rw [← hat.1]
  cases fault with
  | unbalancedParenthesis position =>
      refine if_neg fun hopening => ?_
      rcases List.any_eq_true.1 hopening with ⟨opening, hmem, h⟩
      rcases of_decide_eq_true h with ⟨hkind, hposition⟩
      have hsame : opening = token :=
        Token.eq_of_position_eq (Scan.places 0 _).1 hmem htoken (hposition.trans hat.1)
      have hclosing : opening.kind = .closeParen := hsame ▸ hat.2
      rw [hkind] at hclosing
      cases hclosing
  | _ => rfl

theorem reach_of_unclosed {opening : Token} (hmem : opening ∈ (Scan.of 0 text.toList).tokens)
    (hkind : opening.kind = .openParen) :
    reach ⟨text, context, .unbalancedParenthesis opening.position⟩ = text.toList.length :=
  if_pos (List.any_eq_true.2 ⟨opening, hmem, decide_eq_true ⟨hkind, rfl⟩⟩)

theorem position_lt_reach_of_lack {lack : Lack} (hlack : lack.IsOf (Scan.of 0 text.toList).tokens)
    {token : Token} (htoken : token ∈ (Scan.of 0 text.toList).tokens) :
    token.position < reach ⟨text, context, (TokenStream.ofText text context).lackFault lack⟩ := by
  rcases (Scan.places 0 _).2 token htoken with ⟨⟨-, hinside⟩, hahead⟩
  rw [Nat.zero_add] at hinside
  have hpending := TokenStream.pendingFault_ofText text context
  cases hopened : (Scan.of 0 text.toList).opened with
  | some opening =>
      rcases opening with ⟨what, place⟩
      rw [hopened] at hpending
      rw [TokenStream.lackFault_of_pending hpending]
      cases what <;> exact hahead _ place hopened
  | none =>
      rw [hopened] at hpending
      cases lack with
      | expected e =>
          rw [TokenStream.lackFault, TokenStream.endFault, hpending]
          exact hinside
      | closing opening =>
          rw [TokenStream.lackFault, hpending]
          exact hinside.trans_eq (reach_of_unclosed hlack.1 hlack.2).symm

end QueryError

namespace Filter

open Reading

section Reader

variable {catalog : Catalog} {now : Timestamp} {text : String}

theorem readTokens_of_ok {f : Filter} (m : Nat)
    (h : readTokens ⟨catalog.withLimit none, now, .ofText text .filter⟩ = .ok f) :
    readTokens ⟨catalog.withLimit (some m), now, .ofText text .filter⟩ =
      capped m (operands (Scan.of 0 text.toList).tokens) (.ok f) := by
  let r : Reading := ⟨catalog, now, .ofText text .filter⟩
  have alike := r.alike_withLimit
  cases decision r (Scan.of 0 text.toList).tokens with
  | refused taken token rest fault hsplit _ run =>
      have hfree := (limits_of_charge _ (fun limit => run _ rest (alike limit) hsplit) m).1
      cases h.symm.trans hfree
  | ended lack _ run =>
      have hfree := (limits_of_charge (.error (r.stream.lackFault lack))
        (fun limit => run _ (alike limit) rfl) m).1
      cases h.symm.trans hfree
  | complete result run =>
      rcases limits_of_charge (r.stream.closed result) (fun limit => run _ (alike limit) rfl) m with
        ⟨hfree, hlimited⟩
      exact hlimited.trans (congrArg _ (hfree.symm.trans h))

/-- Under a limit, only the operands among the tokens that have been read can be too many. -/
theorem readTokens_of_error {fault : Fault} (m : Nat)
    (h : readTokens ⟨catalog.withLimit none, now, .ofText text .filter⟩ = .error fault) :
    ∃ seen behind, (Scan.of 0 text.toList).tokens = seen ++ behind ∧
      (∀ token ∈ seen, token.position ≤ QueryError.reach ⟨text, .filter, fault⟩) ∧
      (∀ token ∈ behind, QueryError.reach ⟨text, .filter, fault⟩ < token.position) ∧
      readTokens ⟨catalog.withLimit (some m), now, .ofText text .filter⟩ =
        capped m (operands seen) (.error fault) := by
  let r : Reading := ⟨catalog, now, .ofText text .filter⟩
  have alike := r.alike_withLimit
  cases decision r (Scan.of 0 text.toList).tokens with
  | refused taken token rest found hsplit hat run =>
      rcases limits_of_charge _ (fun limit => run _ rest (alike limit) hsplit) m with
        ⟨hfree, hlimited⟩
      cases h.symm.trans hfree
      have hplaces := (Scan.places 0 text.toList).1
      rw [hsplit] at hplaces
      rcases List.pairwise_append.1 hplaces with ⟨-, hrest, htaken⟩
      have hreach : QueryError.reach ⟨text, .filter, fault⟩ = token.position :=
        QueryError.reach_of_isAt (by simp [hsplit]) hat
      rw [hreach]
      refine ⟨taken ++ [token], rest, by simp [hsplit], fun other hother => ?_,
        (List.pairwise_cons.1 hrest).1, hlimited⟩
      rcases List.mem_append.1 hother with hother | hother
      · exact Nat.le_of_lt (htaken other hother token (List.mem_cons_self ..))
      · rw [List.mem_singleton.1 hother]
  | ended lack hlack run =>
      rcases limits_of_charge (.error (r.stream.lackFault lack))
        (fun limit => run _ (alike limit) rfl) m with ⟨hfree, hlimited⟩
      cases h.symm.trans hfree
      exact ⟨_, [], (List.append_nil _).symm, fun token htoken =>
        Nat.le_of_lt (QueryError.position_lt_reach_of_lack hlack htoken), nofun, hlimited⟩
  | complete result run =>
      rcases limits_of_charge (r.stream.closed result) (fun limit => run _ (alike limit) rfl) m with
        ⟨hfree, hlimited⟩
      have hclosed := hfree.symm.trans h
      have hlack : Lack.IsOf (Scan.of 0 text.toList).tokens (.expected .value) := trivial
      have hfault := TokenStream.lackFault_of_pending (TokenStream.closed_eq_error_iff.1 hclosed)
        (.expected .value)
      refine ⟨_, [], (List.append_nil _).symm, fun token htoken => ?_, nofun,
        hlimited.trans (congrArg _ hclosed)⟩
      rw [← hfault]
      exact Nat.le_of_lt (QueryError.position_lt_reach_of_lack hlack htoken)

end Reader

/-- What a limit of `m` literals does to a text, by what comes of the text without a limit. -/
structure LimitIsExact (catalog : Catalog) (now : Timestamp) (text : String) (m : Nat) : Prop where
  accepted : ∀ f, ofText (catalog.withLimit none) now text = .ok f → f.parameterCount ≤ m →
    ofText (catalog.withLimit (some m)) now text = .ok f
  /-- The operand behind the first `m` is the one that is too many. -/
  exceeded : ∀ f, ofText (catalog.withLimit none) now text = .ok f → m < f.parameterCount →
    ∃ operand, (operands (Scan.of 0 text.toList).tokens)[m]? = some operand ∧
      ofText (catalog.withLimit (some m)) now text =
        .error ⟨text, .filter, .tooManyParameters m operand.position⟩
  /-- The same fault is found, or that operand if it has been read by then. -/
  refused : ∀ e, ofText (catalog.withLimit none) now text = .error e →
    (ofText (catalog.withLimit (some m)) now text = .error e ∧
      ∀ operand, (operands (Scan.of 0 text.toList).tokens)[m]? = some operand →
        e.reach < operand.position) ∨
    ∃ operand, (operands (Scan.of 0 text.toList).tokens)[m]? = some operand ∧
      operand.position ≤ e.reach ∧
      ofText (catalog.withLimit (some m)) now text =
        .error ⟨text, .filter, .tooManyParameters m operand.position⟩
  /-- What is accepted stays within the limit, and is accepted under every larger one. -/
  within : ∀ f, ofText (catalog.withLimit (some m)) now text = .ok f →
    f.parameterCount ≤ m ∧
      ∀ larger, m ≤ larger → ofText (catalog.withLimit (some larger)) now text = .ok f

section Text

variable {catalog : Catalog} {now : Timestamp} {text : String}

theorem ofText_of_ok {f : Filter} (h : ofText (catalog.withLimit none) now text = .ok f) (m : Nat) :
    (f.parameterCount ≤ m → ofText (catalog.withLimit (some m)) now text = .ok f) ∧
      (m < f.parameterCount →
        ∃ operand, (operands (Scan.of 0 text.toList).tokens)[m]? = some operand ∧
          ofText (catalog.withLimit (some m)) now text =
            .error ⟨text, .filter, .tooManyParameters m operand.position⟩) := by
  have hread := mapError_eq_ok_iff.1 h
  have hcount : (operands (Scan.of 0 text.toList).tokens).length = f.parameterCount :=
    length_operands_of_readTokens hread
  have hlimited := readTokens_of_ok m hread
  constructor
  · intro hle
    have hnone := List.getElem?_eq_none_iff.2 (hcount.trans_le hle)
    rw [capped_of_none hnone] at hlimited
    exact mapError_eq_ok_iff.2 hlimited
  · intro hlt
    have hsome := List.getElem?_eq_getElem (hlt.trans_eq hcount.symm)
    rw [capped_of_some hsome] at hlimited
    exact ⟨_, hsome, mapError_eq_error_iff.2 ⟨_, hlimited, rfl⟩⟩

theorem ofText_of_error {e : QueryError} (h : ofText (catalog.withLimit none) now text = .error e)
    (m : Nat) :
    (ofText (catalog.withLimit (some m)) now text = .error e ∧
      ∀ operand, (operands (Scan.of 0 text.toList).tokens)[m]? = some operand →
        e.reach < operand.position) ∨
    ∃ operand, (operands (Scan.of 0 text.toList).tokens)[m]? = some operand ∧
      operand.position ≤ e.reach ∧
      ofText (catalog.withLimit (some m)) now text =
        .error ⟨text, .filter, .tooManyParameters m operand.position⟩ := by
  rcases mapError_eq_error_iff.1 h with ⟨fault, hread, rfl⟩
  rcases readTokens_of_error m hread with ⟨seen, behind, hsplit, hseen, hbehind, hlimited⟩
  rw [hsplit]
  cases hoperand : (operands seen)[m]? with
  | none =>
      left
      rw [capped_of_none hoperand] at hlimited
      refine ⟨mapError_eq_error_iff.2 ⟨fault, hlimited, rfl⟩, fun operand h => ?_⟩
      have hlength : (Slot.other.operands seen).length ≤ m := List.getElem?_eq_none_iff.1 hoperand
      rw [operands, Slot.operands_append, List.getElem?_append_right hlength] at h
      exact hbehind operand ((Slot.operands_sublist _ behind).mem (List.mem_of_getElem? h))
  | some operand =>
      right
      rw [capped_of_some hoperand] at hlimited
      have hmem := (Slot.operands_sublist _ seen).mem (List.mem_of_getElem? hoperand)
      exact ⟨operand, Slot.getElem?_operands_append hoperand behind, hseen operand hmem,
        mapError_eq_error_iff.2 ⟨_, hlimited, rfl⟩⟩

end Text

/-- The limit on literals is exact. -/
theorem limitIsExact (catalog : Catalog) (now : Timestamp) (text : String) (m : Nat) :
    LimitIsExact catalog now text m where
  accepted := fun _ h => (ofText_of_ok h m).1
  exceeded := fun _ h => (ofText_of_ok h m).2
  refused := fun _ h => ofText_of_error h m
  within := by
    intro f hf
    cases h : ofText (catalog.withLimit none) now text with
    | error e =>
        rcases ofText_of_error h m with ⟨hlimited, -⟩ | ⟨operand, -, -, hlimited⟩
        · cases hf.symm.trans hlimited
        · cases hf.symm.trans hlimited
    | ok g =>
        rcases Nat.lt_or_ge m g.parameterCount with hlt | hle
        · rcases (ofText_of_ok h m).2 hlt with ⟨operand, -, hlimited⟩
          cases hf.symm.trans hlimited
        · cases hf.symm.trans ((ofText_of_ok h m).1 hle)
          exact ⟨hle, fun larger hlarger => (ofText_of_ok h larger).1 (hle.trans hlarger)⟩

/-- The place at which an error is reported does not tell how many operands stand ahead of it: a
group without an end is reported where it is opened, but not before all of it has been read. -/
theorem not_limit_by_position_of_unclosed_group :
    ofText (staff.withLimit none) ⟨0, 0⟩ "(id eq 1" =
        .error ⟨"(id eq 1", .filter, .unbalancedParenthesis 0⟩ ∧
      ofText (staff.withLimit (some 0)) ⟨0, 0⟩ "(id eq 1" =
        .error ⟨"(id eq 1", .filter, .tooManyParameters 0 7⟩ ∧
      ∀ operand ∈ operands (Scan.of 0 "(id eq 1".toList).tokens, 0 < operand.position := by
  refine ⟨by cbv, by cbv, ?_⟩
  decide +kernel

end Filter

end RecordQuery
