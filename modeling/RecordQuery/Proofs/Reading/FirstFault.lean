import RecordQuery.Proofs.Filter.Verdict
import RecordQuery.Proofs.Filter.WellFormed
import RecordQuery.Proofs.Order.Verdict

/-!
# The first fault of a text

Reading stops at the first token that does not fit, and what is reported of it depends on nothing
that stands behind it: not on the other tokens, and not on a literal or key segment that is left
open. So all texts that begin with the same tokens up to that one are refused for the same cause.
-/

namespace RecordQuery

namespace Reading

variable {β : Type} {r r' : Reading} {s : Slot} {read : Reading → Except Fault β}

/-- A fault at one of some tokens is found in every text that begins with these. If it is that of an
operand too many, what stands behind may still tell how else the text would have been read, but
either way the operand is counted. -/
theorem Decision.first_fault (h : Decision r s read r.stream.tokens)
    (h' : Decision r' s read r'.stream.tokens) (hr : r.Alike r')
    (hlimit : r'.catalog.maxParameters = r.catalog.maxParameters) {known : List Token}
    (hknown : known <+: r.stream.tokens) (hknown' : known <+: r'.stream.tokens)
    (hplaces : r.stream.tokens.Pairwise (·.position < ·.position))
    (hplaces' : r'.stream.tokens.Pairwise (·.position < ·.position))
    {token : Token} (htoken : token ∈ known) {fault : Fault} (hat : fault.IsAt token)
    (hread : read r = .error fault) : read r' = .error fault := by
  have hr' : r'.Alike r := ⟨hr.columns.symm, hr.now.symm⟩
  rcases h.known_or_behind hknown hplaces with
    ⟨passed, found, run⟩ | ⟨behind, result, hbehind, run, hnot⟩
  · rw [run r' hr hknown', charge_congr hlimit, ← run r (.refl r) hknown, hread]
  · rcases charge_eq_self_or_error (β := β) r (s.operands (known ++ behind)) with
      hself | ⟨m, operand, hm, hoperand, hover⟩
    · rw [run, hself] at hread
      exact absurd hread (hnot token htoken fault hat)
    · rw [run, hover] at hread
      cases hread
      have hcounted : (s.operands known)[m]? = some operand :=
        Slot.getElem?_operands_of_append (hplaces.sublist hbehind.sublist) htoken hoperand
          (Nat.le_of_eq hat.1)
      rcases h'.known_or_behind hknown' hplaces' with
        ⟨passed, found, run'⟩ | ⟨behind', result', -, run', -⟩
      · rw [run' r' (.refl r') hknown', charge_congr hlimit, ← run' r hr' hknown, run, hover]
      · rw [run', charge_congr hlimit]
        exact charge_of_getElem? hm (Nat.zero_add m)
          (Slot.getElem?_operands_append hcounted behind') _

/-- Of the error that a parser makes of such a fault, only the text is another one. -/
theorem Parses.first_fault {catalog : Catalog} {now : Timestamp} {context : QueryContext}
    {parse : String → Except QueryError β} (h : Parses catalog now context parse s read)
    {text text' : String} {n : Nat}
    (same : (Scan.of 0 text.toList).tokens.take n = (Scan.of 0 text'.toList).tokens.take n)
    {token : Token} (htoken : token ∈ (Scan.of 0 text.toList).tokens.take n) {e : QueryError}
    (hparse : parse text = .error e) (hat : e.fault.IsAt token) :
    parse text' = .error { e with text := text' } := by
  rw [h.run, mapError_eq_error_iff] at hparse
  rcases hparse with ⟨fault, hread, rfl⟩
  rw [h.run, mapError_eq_error_iff]
  refine ⟨fault, ?_, rfl⟩
  exact (h.decision ⟨catalog, now, .ofText text context⟩ _).first_fault
    (h.decision ⟨catalog, now, .ofText text' context⟩ _) ⟨rfl, rfl⟩ rfl (List.take_prefix n _)
    (same ▸ List.take_prefix n _) (Scan.places 0 _).1 (Scan.places 0 _).1 htoken hat hread

end Reading

/-- The first token that does not fit decides the error. Two texts have the same tokens up to the
`i`-th one, counted from zero. If one of them is refused for a fault at this token, so is the other
one, as a filter or as an order, whatever tokens or open quotes or keys follow in either. -/
theorem ofText_eq_error_of_isAt (catalog : Catalog) (now : Timestamp) {text text' : String}
    {i : Nat} {token : Token}
    (same : (Scan.of 0 text.toList).tokens.take (i + 1) =
      (Scan.of 0 text'.toList).tokens.take (i + 1))
    (ith : (Scan.of 0 text.toList).tokens[i]? = some token) :
    (∀ e, Filter.ofText catalog now text = .error e → e.fault.IsAt token →
        Filter.ofText catalog now text' = .error { e with text := text' }) ∧
      ∀ e, SortKey.ofText catalog text = .error e → e.fault.IsAt token →
        SortKey.ofText catalog text' = .error { e with text := text' } := by
  have htoken : token ∈ (Scan.of 0 text.toList).tokens.take (i + 1) := by
    rw [List.take_add_one, ith]
    exact List.mem_append_right _ (List.mem_singleton_self token)
  exact ⟨fun e => (Filter.parses_ofText catalog now).first_fault same htoken,
    fun e => (SortKey.parses_ofText catalog now).first_fault same htoken⟩

theorem ofText_eq_error_of_isAt_open_quote :
    (Scan.of 0 "id 'x'".toList).tokens.take 2 = (Scan.of 0 "id 'x' and ('y".toList).tokens.take 2 ∧
      Filter.ofText Filter.staff ⟨0, 0⟩ "id 'x' and ('y" =
        .error ⟨"id 'x' and ('y", .filter, .unexpectedToken ⟨.string, "x", 3⟩ .operator⟩ ∧
      SortKey.ofText Filter.staff "id 'x' and ('y" =
        .error ⟨"id 'x' and ('y", .orderBy,
          .unexpectedToken ⟨.string, "x", 3⟩ .orderContinuation⟩ := by
  have same : (Scan.of 0 "id 'x'".toList).tokens.take 2 =
      (Scan.of 0 "id 'x' and ('y".toList).tokens.take 2 := by
    decide +kernel
  have second : (Scan.of 0 "id 'x'".toList).tokens[1]? = some ⟨.string, "x", 3⟩ := by
    decide +kernel
  have hfilter : Filter.ofText Filter.staff ⟨0, 0⟩ "id 'x'" =
      .error ⟨"id 'x'", .filter, .unexpectedToken ⟨.string, "x", 3⟩ .operator⟩ := by
    cbv
  have horder : SortKey.ofText Filter.staff "id 'x'" =
      .error ⟨"id 'x'", .orderBy, .unexpectedToken ⟨.string, "x", 3⟩ .orderContinuation⟩ := by
    cbv
  rcases ofText_eq_error_of_isAt Filter.staff ⟨0, 0⟩ same second with ⟨filter, order⟩
  exact ⟨same, filter _ hfilter ⟨rfl, trivial⟩, order _ horder ⟨rfl, trivial⟩⟩

end RecordQuery
