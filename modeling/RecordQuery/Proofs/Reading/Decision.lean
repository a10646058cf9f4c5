import RecordQuery.Proofs.Reading.Verdict
import RecordQuery.Proofs.Token.Places

/-!
# How the tokens of a text decide its reading

A text is read from its first token to its last one, and what it leaves open counts only where the
tokens have been used up. `Reading.Decision` is the verdict on such a reading: there is a fault at
one of the tokens, or something is missing behind them, or they are complete. In each case the
outcome is known for all texts that begin with the tokens that decide it, under any limit on the
number of literals.

So the reading of a text that begins with some tokens `known` is decided by these, or it goes on
behind them and finds no fault of its own at any of them (`Decision.known_or_behind`).
-/

namespace RecordQuery

/-- The outcome of reading a text in which no token is missing: what it leaves open, if anything. -/
def TokenStream.closed {β : Type} (s : TokenStream) (result : β) : Except Fault β :=
  match s.pendingFault with
  | some fault => .error fault
  | none => .ok result

namespace TokenStream

variable {s : TokenStream} {fault : Fault}

theorem closed_eq_ok_iff {β : Type} {result b : β} :
    s.closed result = .ok b ↔ s.pendingFault = none ∧ result = b := by
  cases h : s.pendingFault <;> simp [closed, h]

theorem closed_eq_error_iff {β : Type} {result : β} :
    s.closed result = .error fault ↔ s.pendingFault = some fault := by
  cases h : s.pendingFault <;> simp [closed, h]

theorem not_isAt_of_pending (h : s.pendingFault = some fault) (token : Token) :
    ¬fault.IsAt token := by
  rw [pendingFault, Option.map_eq_some_iff] at h
  rcases h with ⟨what, -, rfl⟩
  rcases what with _ | _
  · exact fun hat => hat.2
  · exact fun hat => hat.2

/-- The fault of a text that ends too early is not one of its tokens, even if it is reported at the
parenthesis that opens a group. -/
theorem not_isAt_lackFault {tokens : List Token}
    (hplaces : tokens.Pairwise (·.position < ·.position)) {lack : Lack} (hlack : lack.IsOf tokens)
    {token : Token} (htoken : token ∈ tokens) : ¬(s.lackFault lack).IsAt token := by
  cases hpending : s.pendingFault with
  | some fault =>
      rw [lackFault_of_pending hpending]
      exact not_isAt_of_pending hpending token
  | none =>
      cases lack with
      | expected e =>
          rw [lackFault, endFault, hpending]
          exact fun hat => hat.2
      | closing opening =>
          rw [lackFault, hpending]
          rintro ⟨hposition, hclosing⟩
          have hsame : opening = token := Token.eq_of_position_eq hplaces hlack.1 htoken hposition
          rw [← hsame, hlack.2] at hclosing
          cases hclosing

end TokenStream

namespace Reading

/-- How some tokens decide all readings like `r` of a text that has these tokens. The first of them
stands in the slot `s`. -/
inductive Decision {β : Type} (r : Reading) (s : Slot) (read : Reading → Except Fault β)
    (tokens : List Token) : Prop
  | refused (taken : List Token) (token : Token) (rest : List Token) (fault : Fault) :
      tokens = taken ++ token :: rest → fault.IsAt token →
      (∀ r' more, r.Alike r' → r'.stream.tokens = taken ++ token :: more →
        read r' = r'.charge 0 (s.operands (taken ++ [token])) (.error fault)) →
      Decision r s read tokens
  | ended (lack : Lack) :
      lack.IsOf tokens →
      (∀ r', r.Alike r' → r'.stream.tokens = tokens →
        read r' = r'.charge 0 (s.operands tokens) (.error (r'.stream.lackFault lack))) →
      Decision r s read tokens
  | complete (result : β) :
      (∀ r', r.Alike r' → r'.stream.tokens = tokens →
        read r' = r'.charge 0 (s.operands tokens) (r'.stream.closed result)) →
      Decision r s read tokens

namespace Decision

variable {β : Type} {r : Reading} {s t : Slot} {read : Reading → Except Fault β}
  {tokens : List Token}

/-- The decision of a reader that reads to the end. A text without tokens is not read at all. -/
theorem of_verdict (reader : Reader β) (empty : β)
    (hnil : ∀ r', r'.stream.tokens = [] → read r' = r'.stream.closed empty)
    (hcons : ∀ r', r'.stream.tokens ≠ [] →
      read r' = reader r' ⟨r'.stream.tokens, 0⟩ >>= fun p => r'.stream.closed p.1)
    (hend : ∀ r' tokens result c, reader r' ⟨tokens, 0⟩ = .ok (result, c) → c.tokens = [])
    (h : Verdict r tokens s t reader tokens) : Decision r s read tokens := by
  by_cases htokens : tokens = []
  · subst htokens
    exact .complete empty fun r' _ htokens => hnil r' htokens
  · cases h with
    | accepted taken rest result hsplit ht run =>
        have hrest : rest = [] := by
          have hrun := run _ 0 rest (r.alike_withLimit none) rfl
          rw [charge_of_unlimited rfl] at hrun
          exact hend _ _ _ _ hrun
        obtain rfl : tokens = taken := by rw [hsplit, hrest, List.append_nil]
        refine .complete result fun r' hr hsame => ?_
        have hrun := run r' 0 [] hr (by rw [hrest])
        rw [List.append_nil] at hrun
        rw [hcons r' (hsame ▸ htokens), hsame, hrun, charge_bind]
        rfl
    | refused taken token rest fault hsplit hat run =>
        refine .refused taken token rest fault hsplit hat fun r' more hr hmore => ?_
        rw [hcons r' (by simp [hmore]), hmore, run r' 0 more hr, charge_bind]
        rfl
    | ended lack hlack run =>
        refine .ended lack hlack fun r' hr hsame => ?_
        rw [hcons r' (hsame ▸ htokens), hsame, run r' 0 hr, charge_bind]
        rfl

/-- Of a text that begins with some tokens, either these decide how it is read, and so they do for
every other text that begins with them, or no fault is found at any of them except that there are
too many operands. -/
theorem known_or_behind (h : Decision r s read r.stream.tokens) {known : List Token}
    (hknown : known <+: r.stream.tokens)
    (hplaces : r.stream.tokens.Pairwise (·.position < ·.position)) :
    (∃ operands fault, ∀ r', r.Alike r' → known <+: r'.stream.tokens →
        read r' = r'.charge 0 operands (.error fault)) ∨
      ∃ behind result, known ++ behind <+: r.stream.tokens ∧
        read r = r.charge 0 (s.operands (known ++ behind)) result ∧
        ∀ token ∈ known, ∀ fault, fault.IsAt token → result ≠ .error fault := by
  cases h with
  | refused taken token rest fault hsplit hat run =>
      by_cases hlength : known.length ≤ taken.length
      · right
        -- The fault is behind all of `known`, and so at another place than any token in it.
        rw [hsplit] at hknown hplaces
        rcases List.prefix_of_prefix_length_le hknown (List.prefix_append _ _) hlength with
          ⟨behind, rfl⟩
        refine ⟨behind ++ [token], .error fault, ?_, ?_, fun other hother fault' hat' hfault => ?_⟩
        · exact ⟨rest, by rw [hsplit]; simp⟩
        · rw [← List.append_assoc]
          exact run r rest (.refl r) hsplit
        · cases hfault
          have hbefore : other.position < token.position :=
            (List.pairwise_append.1 hplaces).2.2 other (List.mem_append_left _ hother) token
              (List.mem_cons_self ..)
          have hsame : token.position = other.position := hat.1.symm.trans hat'.1
          omega
      · left
        have hpassed : taken ++ [token] <+: known := by
          refine List.prefix_of_prefix_length_le ⟨rest, by rw [hsplit]; simp⟩ hknown ?_
          rw [List.length_append, List.length_singleton]
          omega
        refine ⟨s.operands (taken ++ [token]), fault, fun r' hr hknown' => ?_⟩
        rcases hpassed.trans hknown' with ⟨more, hmore⟩
        exact run r' more hr (by rw [← hmore]; simp)
  | ended lack hlack run =>
      right
      rcases hknown with ⟨behind, hsplit⟩
      refine ⟨behind, .error (r.stream.lackFault lack), hsplit ▸ List.prefix_rfl, ?_,
        fun token htoken fault hat hfault => ?_⟩
      · rw [hsplit]
        exact run r (.refl r) rfl
      · cases hfault
        exact TokenStream.not_isAt_lackFault hplaces hlack
          (hsplit ▸ List.mem_append_left _ htoken) hat
  | complete result run =>
      right
      rcases hknown with ⟨behind, hsplit⟩
      refine ⟨behind, r.stream.closed result, hsplit ▸ List.prefix_rfl, ?_,
        fun token _ fault hat hfault => ?_⟩
      · rw [hsplit]
        exact run r (.refl r) rfl
      · exact TokenStream.not_isAt_of_pending (TokenStream.closed_eq_error_iff.1 hfault) token hat

end Decision

/-- A parser reads the tokens of a text as `read` does, and these decide what comes of it. -/
structure Parses {β : Type} (catalog : Catalog) (now : Timestamp) (context : QueryContext)
    (parse : String → Except QueryError β) (s : Slot) (read : Reading → Except Fault β) : Prop where
  decision : ∀ r tokens, Decision r s read tokens
  run : ∀ text, parse text = (read ⟨catalog, now, .ofText text context⟩).mapError fun fault =>
    ⟨text, context, fault⟩

end Reading

end RecordQuery
