import RecordQuery.Proofs.Filter.Verdict
import RecordQuery.Proofs.Filter.WellFormed
import RecordQuery.Proofs.Order.Verdict

/-!
# Texts that leave something open

A text that ends inside a literal or a key segment is never accepted. What it leaves open is
reported wherever the tokens ahead of that run out: in the middle of a clause, inside groups, or
behind a complete filter or order. It gives way only to a fault at one of the tokens ahead, and
there is none if they could be the beginning of a text that is accepted.
-/

namespace RecordQuery

namespace Reading

variable {β : Type} {r r' : Reading} {s : Slot} {read : Reading → Except Fault β}

theorem charge_error_eq (r : Reading) (operands : List Token) (fault : Fault) :
    ∃ found, r.charge 0 operands (.error fault : Except Fault β) = .error found ∧
      (found = fault ∨ ∃ operand ∈ operands, found.IsAt operand) := by
  rcases charge_eq_self_or_error (β := β) r operands with hself | ⟨m, operand, -, hoperand, hover⟩
  · exact ⟨fault, hself _, .inl rfl⟩
  · exact ⟨_, hover _, .inr ⟨operand, List.mem_of_getElem? hoperand, rfl, trivial⟩⟩

/-- Where a reading succeeds, some of its operands are never too many. -/
theorem charge_of_append_ok {first second : List Token} {result : Except Fault β} {b : β}
    (h : r.charge 0 (first ++ second) result = .ok b) (other : Except Fault β) :
    r.charge 0 first other = other := by
  rw [charge_append] at h
  rcases charge_eq_self_or_error (β := β) r first with hself | ⟨m, operand, -, -, hover⟩
  · exact hself other
  · rw [hover] at h
    cases h

namespace Decision

/-- Of a text that leaves something open, either the tokens have a fault, or they are all read and
what is left open is reported. -/
theorem of_pending (h : Decision r s read r.stream.tokens) {fault : Fault}
    (hpending : r.stream.pendingFault = some fault) :
    (∃ taken token rest found, r.stream.tokens = taken ++ token :: rest ∧ found.IsAt token ∧
        ∀ r' more, r.Alike r' → r'.stream.tokens = taken ++ token :: more →
          read r' = r'.charge 0 (s.operands (taken ++ [token])) (.error found)) ∨
      read r = r.charge 0 (s.operands r.stream.tokens) (.error fault) := by
  cases h with
  | refused taken token rest found hsplit hat run =>
      exact .inl ⟨taken, token, rest, found, hsplit, hat, run⟩
  | ended lack hlack run =>
      right
      rw [run r (.refl r) rfl, TokenStream.lackFault_of_pending hpending]
  | complete result run =>
      right
      rw [run r (.refl r) rfl, TokenStream.closed_eq_error_iff.2 hpending]

theorem error_of_pending (h : Decision r s read r.stream.tokens) {fault : Fault}
    (hpending : r.stream.pendingFault = some fault) :
    ∃ found, read r = .error found ∧
      (found = fault ∨ ∃ token ∈ r.stream.tokens, found.IsAt token) := by
  rcases h.of_pending hpending with ⟨taken, token, rest, found, hsplit, hat, run⟩ | run
  · rw [run r rest (.refl r) hsplit]
    rcases charge_error_eq (β := β) r (s.operands (taken ++ [token])) found with
      ⟨found', hfound, rfl | ⟨operand, hoperand, hat'⟩⟩
    · exact ⟨found', hfound, .inr ⟨token, by simp [hsplit], hat⟩⟩
    · have hmem : operand ∈ taken ++ [token] := (s.operands_sublist _).mem hoperand
      refine ⟨found', hfound, .inr ⟨operand, ?_, hat'⟩⟩
      rw [hsplit, List.append_cons]
      exact List.mem_append_left _ hmem
  · rw [run]
    rcases charge_error_eq (β := β) r (s.operands r.stream.tokens) fault with
      ⟨found, hfound, rfl | ⟨operand, hoperand, hat⟩⟩
    · exact ⟨found, hfound, .inl rfl⟩
    · exact ⟨found, hfound, .inr ⟨operand, (s.operands_sublist _).mem hoperand, hat⟩⟩

/-- The tokens ahead of what is left open have no fault if a text that begins with them is
accepted. -/
theorem error_of_prefix (h : Decision r s read r.stream.tokens)
    (h' : Decision r' s read r'.stream.tokens) (hr : r.Alike r')
    (hlimit : r'.catalog.maxParameters = r.catalog.maxParameters) {fault : Fault}
    (hpending : r.stream.pendingFault = some fault)
    (hinitial : r.stream.tokens <+: r'.stream.tokens)
    (hplaces' : r'.stream.tokens.Pairwise (·.position < ·.position)) {b : β}
    (hread' : read r' = .ok b) : read r = .error fault := by
  rcases h.of_pending hpending with ⟨taken, token, rest, found, hsplit, hat, run⟩ | run
  · rcases hinitial with ⟨more, hmore⟩
    rw [run r' (rest ++ more) hr (by rw [← hmore, hsplit]; simp)] at hread'
    rcases charge_error_eq (β := β) r' (s.operands (taken ++ [token])) found with
      ⟨found', hfound, -⟩
    rw [hfound] at hread'
    cases hread'
  · rcases h'.known_or_behind hinitial hplaces' with
      ⟨passed, found, run'⟩ | ⟨behind, result, -, run', -⟩
    · rw [run' r' (.refl r') hinitial] at hread'
      rcases charge_error_eq (β := β) r' passed found with ⟨found', hfound, -⟩
      rw [hfound] at hread'
      cases hread'
    · rw [run', s.operands_append] at hread'
      rw [run, ← charge_congr hlimit]
      exact charge_of_append_ok hread' _

end Decision

/-- How a parser deals with a text in which something is opened at a place and never closed. -/
structure ReportsOpenEnd (parse : String → Except QueryError β) (context : QueryContext)
    (text : String) (what : Opening) (place : Nat) : Prop where
  /-- The text is refused for what it leaves open, or for a fault ahead of that. -/
  refused : ∃ fault, parse text = .error ⟨text, context, fault⟩ ∧
    (fault = what.fault place ∨ fault.position < place)
  /-- It is refused for what it leaves open if its tokens are the beginning of an accepted text. -/
  reported : ∀ other b, parse other = .ok b →
    (Scan.of 0 text.toList).tokens <+: (Scan.of 0 other.toList).tokens →
    parse text = .error ⟨text, context, what.fault place⟩
  /-- What is left open is not mistaken for the end of the text. -/
  not_end : ∀ e, parse text = .error e →
    ∀ expected position, e.fault ≠ .unexpectedEnd expected position
  /-- Nor is it taken for the lack of a closing parenthesis: one that is unbalanced closes. -/
  unbalanced : ∀ e, parse text = .error e →
    ∀ position, e.fault = .unbalancedParenthesis position →
      ∃ closing ∈ (Scan.of 0 text.toList).tokens,
        closing.kind = .closeParen ∧ closing.position = position

theorem Parses.reportsOpenEnd {catalog : Catalog} {now : Timestamp} {context : QueryContext}
    {parse : String → Except QueryError β} (h : Parses catalog now context parse s read)
    {text : String} {what : Opening} {place : Nat}
    (hopened : (Scan.of 0 text.toList).opened = some (what, place)) :
    ReportsOpenEnd parse context text what place := by
  have hpending : (TokenStream.ofText text context).pendingFault = some (what.fault place) := by
    rw [TokenStream.pendingFault_ofText, hopened]
    rfl
  have hdecision := h.decision ⟨catalog, now, .ofText text context⟩ (Scan.of 0 text.toList).tokens
  rcases hdecision.error_of_pending hpending with ⟨found, hread, hfound⟩
  have hparse : parse text = .error ⟨text, context, found⟩ := by
    rw [h.run, hread]
    rfl
  refine ⟨⟨found, hparse, ?_⟩, fun other b hother hinitial => ?_, fun e he => ?_, fun e he => ?_⟩
  · rcases hfound with hfound | ⟨token, htoken, hat⟩
    · exact .inl hfound
    · right
      rw [hat.1]
      exact ((Scan.places 0 _).2 token htoken).2 what place hopened
  · rw [h.run, mapError_eq_ok_iff] at hother
    have hread' := hdecision.error_of_prefix
      (h.decision ⟨catalog, now, .ofText other context⟩ _) ⟨rfl, rfl⟩ rfl hpending hinitial
      (Scan.places 0 _).1 hother
    rw [h.run, hread']
    rfl
  · obtain rfl : ⟨text, context, found⟩ = e := Except.error.inj (hparse.symm.trans he)
    rintro expected position rfl
    rcases hfound with hfound | ⟨token, -, hat⟩
    · cases what <;> cases hfound
    · exact hat.2
  · obtain rfl : ⟨text, context, found⟩ = e := Except.error.inj (hparse.symm.trans he)
    rintro position rfl
    rcases hfound with hfound | ⟨token, htoken, hat⟩
    · cases what <;> cases hfound
    · exact ⟨token, htoken, hat.2, hat.1.symm⟩

end Reading

/-- A text that ends inside a literal or a key segment is refused as a filter and as an order. -/
theorem reportsOpenEnd_ofText (catalog : Catalog) (now : Timestamp) {text : String}
    {what : Opening} {place : Nat}
    (hopened : (Scan.of 0 text.toList).opened = some (what, place)) :
    Reading.ReportsOpenEnd (Filter.ofText catalog now) .filter text what place ∧
      Reading.ReportsOpenEnd (SortKey.ofText catalog) .orderBy text what place :=
  ⟨(Filter.parses_ofText catalog now).reportsOpenEnd hopened,
    (SortKey.parses_ofText catalog now).reportsOpenEnd hopened⟩

theorem reportsOpenEnd_ofText_in_group :
    (Scan.of 0 "not (name in ('x".toList).opened = some (.quote, 14) ∧
      Filter.ofText Filter.staff ⟨0, 0⟩ "not (name in ('x" =
        .error ⟨"not (name in ('x", .filter, .unterminatedLiteral 14⟩ ∧
      ∃ fault, SortKey.ofText Filter.staff "not (name in ('x" =
          .error ⟨"not (name in ('x", .orderBy, fault⟩ ∧
        (fault = .unterminatedLiteral 14 ∨ fault.position < 14) := by
  have hopened : (Scan.of 0 "not (name in ('x".toList).opened = some (.quote, 14) := by
    decide +kernel
  have haccepted : Filter.ofText Filter.staff ⟨0, 0⟩ "not (name in ('x'))" = .ok ⟨[
      .leaf true none ⟨⟨"name", .string, ["FullName"], false, false⟩, []⟩
        (.oneOf [.string "x"])]⟩ := by
    cbv
  have hinitial : (Scan.of 0 "not (name in ('x".toList).tokens <+:
      (Scan.of 0 "not (name in ('x'))".toList).tokens := by
    decide +kernel
  rcases reportsOpenEnd_ofText Filter.staff ⟨0, 0⟩ hopened with ⟨filter, order⟩
  exact ⟨hopened, filter.reported _ _ haccepted hinitial, order.refused⟩

end RecordQuery
