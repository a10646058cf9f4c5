import RecordQuery.Proofs.Filter.Lockstep
import RecordQuery.Proofs.Filter.WellFormed
import RecordQuery.Proofs.Grammar.Neighbours
import RecordQuery.Proofs.Token.Quoting

/-!
# Spelling does not change a query

Operators and keywords may be written in any way that makes a token of the same kind, a column may
go by any of its names, and an operand may be quoted unless its column is a document
(`Filter.spelling`). For tokens this is the lockstep of two readings. In a text, the quotes around
an operand neither end the lexeme ahead of it nor are ended by the one behind it, since neither is a
quoted text.
-/

namespace RecordQuery

/-- Tokens that differ from others in nothing but spelling: a name may be replaced by one that the
catalog resolves to the same column, or to none either. -/
structure SpelledAlike (catalog : Catalog) (tokens tokens' : List Token) : Prop where
  kinds : tokens'.map Token.kind = tokens.map Token.kind
  texts : ∀ (i : Nat) (a b : Token), tokens[i]? = some a → tokens'[i]? = some b →
    a.isLiteral = true → b.text = a.text ∨
      a.kind = .identifier ∧ (Slot.other.after (tokens.take i)).asksForValue = false ∧
        catalog.resolve b.text = catalog.resolve a.text

theorem Slot.asksForValue_next_string (s : Slot) : (s.next .string).asksForValue = false := by
  cases s <;> rfl

def SameIndex (tokens tokens' : List Token) (a b : Token) : Prop :=
  ∃ i : Nat, tokens[i]? = some a ∧ tokens'[i]? = some b

theorem respelled_of_forall {catalog : Catalog} {Paired : Token → Token → Prop} {p : Standing}
    {as bs : List Token} (hlength : bs.length = as.length)
    (h : ∀ (i : Nat) (a b : Token), as[i]? = some a → bs[i]? = some b →
      Paired a b ∧ a.Respells catalog (p.after catalog (as.take i)) b) :
    Respelled catalog Paired p as bs := by
  induction as generalizing p bs with
  | nil =>
      cases List.length_eq_zero_iff.1 hlength
      exact .nil
  | cons a as ih =>
      cases bs with
      | nil => cases hlength
      | cons b bs =>
          rcases h 0 a b rfl rfl with ⟨hpaired, hab⟩
          exact .cons hpaired hab (ih (Nat.succ.inj hlength) fun i c d hc hd =>
            h (i + 1) c d hc hd)

theorem SpelledAlike.respelled {catalog : Catalog} {tokens tokens' : List Token}
    (h : SpelledAlike catalog tokens tokens') :
    Respelled catalog (SameIndex tokens tokens') {} tokens tokens' := by
  have hlength : tokens'.length = tokens.length := by
    simpa using congrArg List.length h.kinds
  refine respelled_of_forall hlength fun i a b ha hb => ⟨⟨i, ha, hb⟩, ?_⟩
  have hkind : b.kind = a.kind := by
    have := congrArg (·[i]?) h.kinds
    simpa [ha, hb] using this
  cases hliteral : a.isLiteral with
  | false => exact .spelled hkind fun h => absurd (hliteral.symm.trans h) Bool.false_ne_true
  | true =>
      rcases h.texts i a b ha hb hliteral with htext | ⟨hname, hslot, hresolve⟩
      · exact .spelled hkind fun _ => htext
      · refine .named ?_ hname (hkind.trans hname) hresolve
        rw [Standing.slot_after]
        exact hslot

namespace Respelled

variable {catalog : Catalog} {Paired : Token → Token → Prop}

theorem append_left (hpaired : ∀ a, Paired a a) (first : List Token) {p : Standing}
    {as bs : List Token} (h : Respelled catalog Paired (p.after catalog first) as bs) :
    Respelled catalog Paired p (first ++ as) (first ++ bs) := by
  induction first generalizing p with
  | nil => exact h
  | cons token first ih => exact .cons (hpaired token) (.refl catalog p token) (ih h)

theorem shift (hpaired : ∀ (a : Token) m n, Paired (a.shift m) (a.shift n)) (m n : Nat)
    (p : Standing) (tokens : List Token) :
    Respelled catalog Paired p (tokens.map (Token.shift m)) (tokens.map (Token.shift n)) := by
  induction tokens generalizing p with
  | nil => exact .nil
  | cons token tokens ih => exact .cons (hpaired token m n) (.spelled rfl fun _ => rfl) (ih _)

end Respelled

namespace Filter

open Reading

def IsOperandWord (catalog : Catalog) (text : String) (place : Nat) (word : List Char)
    (column : Column) : Prop :=
  ∃ before kind after,
    (Scan.of 0 text.toList).lexemes = before ++ (place, .plain kind word) :: after ∧
      kind.isLiteral = true ∧
      (Standing.after catalog {} (before.flatMap fun (place, l) => l.tokens place)).AsksFor column

theorem ofText_quoteAt {catalog : Catalog} {now : Timestamp} {text : String} {f : Filter}
    {place : Nat} {word : List Char} {column : Column}
    (h : ofText catalog now text = .ok f) (hword : IsOperandWord catalog text place word column)
    (hcolumn : column.type ≠ .json) :
    ofText catalog now (String.ofList (Scan.quoteAt text.toList place word)) = .ok f := by
  rcases ofText_eq_ok_iff.1 h with ⟨hclosed, derives⟩
  rcases hword with ⟨before, kind, after, hlexemes, hliteral, hasks⟩
  have hbefore : ∀ entry ∈ before.getLast?, ∀ content, entry.2 ≠ .quoted content := by
    rintro ⟨place', _⟩ hentry content rfl
    rcases List.getLast?_eq_some_iff.1 hentry with ⟨others, rfl⟩
    have hslot := hasks.slot
    rw [Standing.slot_after, List.flatMap_append, Slot.after_append] at hslot
    exact absurd hslot (by simp [Slot.after, Lexeme.tokens, Slot.asksForValue_next_string])
  have hafter : ∀ entry ∈ after.head?, ∀ content, entry.2 ≠ .quoted content := by
    rintro ⟨place', _⟩ hentry content rfl
    rcases List.head?_eq_some_iff.1 hentry with ⟨others, rfl⟩
    have hapart := derives.stringsApart
    rw [Scan.tokens, hlexemes, List.flatMap_append] at hapart
    have hnext := (List.isChain_cons_cons.1 hapart.right_of_append).1
    exact hnext hliteral rfl
  rcases Scan.of_quoteAt hlexemes hclosed hbefore hafter with
    ⟨rest, m, n, htokens, hquoted, hopened⟩
  have hrespelled : Respelled catalog (fun _ _ => True) {} (Scan.of 0 text.toList).tokens
      (Scan.of 0 (Scan.quoteAt text.toList place word)).tokens := by
    rw [htokens, hquoted]
    exact .append_left (fun _ => trivial) _ (.cons trivial
      (.quoted hasks hcolumn hliteral rfl rfl) (.shift (fun _ _ _ => trivial) m n _ rest))
  have hpending {other : String} (hother : (Scan.of 0 other.toList).opened = none) :
      (TokenStream.ofText other .filter).pendingFault = none := by
    rw [TokenStream.pendingFault_ofText, hother]
    rfl
  rw [← String.toList_ofList (l := Scan.quoteAt text.toList place word)] at hopened hrespelled
  rw [ofText, ofStream_eq_ok_iff_readTokens] at h ⊢
  have hboth := readTokens_of_respelled (r := ⟨catalog, now, .ofText text .filter⟩)
    (s := .ofText (String.ofList (Scan.quoteAt text.toList place word)) .filter)
    ⟨hpending hclosed, hpending hopened⟩ hrespelled
  rcases hboth with ⟨g, hread, hread'⟩ | ⟨fault, fault', hread, -, -⟩
  · cases hread.symm.trans h
    exact hread'
  · cases hread.symm.trans h

/-- What comes of two spellings of a query: the same filter, or errors of the same kind at tokens in
the same place. -/
def SameOutcome (s s' : TokenStream) (x y : Except QueryError Filter) : Prop :=
  (∃ f, x = .ok f ∧ y = .ok f) ∨
    ∃ fault fault', x = .error (s.error fault) ∧ y = .error (s'.error fault') ∧
      fault.Corresponds (SameIndex s.tokens s'.tokens) s.textLength s'.textLength fault'

theorem sameOutcome_of_spelledAlike {catalog : Catalog} {s s' : TokenStream} (now : Timestamp)
    (hs : s.unterminated = none) (hs' : s'.unterminated = none)
    (h : SpelledAlike catalog s.tokens s'.tokens) :
    SameOutcome s s' (ofStream catalog now s) (ofStream catalog now s') := by
  have hclosed : Closed ⟨catalog, now, s⟩ s' :=
    ⟨TokenStream.pendingFault_eq_none_iff.2 hs, TokenStream.pendingFault_eq_none_iff.2 hs'⟩
  rcases readTokens_of_respelled hclosed h.respelled with
    ⟨f, hread, hread'⟩ | ⟨fault, fault', hread, hread', hfault⟩
  · exact .inl ⟨f, mapError_eq_ok_iff.2 hread, mapError_eq_ok_iff.2 hread'⟩
  · exact .inr ⟨fault, fault', mapError_eq_error_iff.2 ⟨fault, hread, rfl⟩,
      mapError_eq_error_iff.2 ⟨fault', hread', rfl⟩, hfault⟩

/-- Spelling does not change a query. Streams of tokens that differ in nothing else make the same
filter or have the same error at tokens in the same place, and an operand of an accepted text may be
put between apostrophes, unless its column is a document. -/
theorem spelling (catalog : Catalog) (now : Timestamp) :
    (∀ s s' : TokenStream, s.unterminated = none → s'.unterminated = none →
        SpelledAlike catalog s.tokens s'.tokens →
        SameOutcome s s' (ofStream catalog now s) (ofStream catalog now s')) ∧
      ∀ text f place word column, ofText catalog now text = .ok f →
        IsOperandWord catalog text place word column → column.type ≠ .json →
        ofText catalog now (String.ofList (Scan.quoteAt text.toList place word)) = .ok f :=
  ⟨fun _ _ hs hs' h => sameOutcome_of_spelledAlike now hs hs' h,
    fun _ _ _ _ _ h hword hcolumn => ofText_quoteAt h hword hcolumn⟩

theorem spelling_alias_and_quotes :
    SameOutcome (.ofText "name = x" .filter) (.ofText "FULLNAME  EQ x" .filter)
        (ofStream staff ⟨0, 0⟩ (.ofText "name = x" .filter))
        (ofStream staff ⟨0, 0⟩ (.ofText "FULLNAME  EQ x" .filter)) ∧
      ofText staff ⟨0, 0⟩ "id in (7, '8')" = ofText staff ⟨0, 0⟩ "id in ('7', '8')" := by
  have hspelled : SpelledAlike staff (TokenStream.ofText "name = x" .filter).tokens
      (TokenStream.ofText "FULLNAME  EQ x" .filter).tokens := by
    have hfirst : (TokenStream.ofText "name = x" .filter).tokens =
        [⟨.identifier, "name", 0⟩, ⟨.operator (.relation .equal), "=", 5⟩,
          ⟨.identifier, "x", 7⟩] := by
      decide +kernel
    have hsecond : (TokenStream.ofText "FULLNAME  EQ x" .filter).tokens =
        [⟨.identifier, "FULLNAME", 0⟩, ⟨.operator (.relation .equal), "EQ", 10⟩,
          ⟨.identifier, "x", 13⟩] := by
      decide +kernel
    have hresolve : staff.resolve "FULLNAME" = staff.resolve "name" := by
      decide +kernel
    rw [hfirst, hsecond]
    refine ⟨rfl, fun i a b ha hb hliteral => ?_⟩
    match i with
    | 0 =>
        cases ha
        cases hb
        exact .inr ⟨rfl, rfl, hresolve⟩
    | 1 =>
        cases ha
        cases hliteral
    | 2 =>
        cases ha
        cases hb
        exact .inl rfl
  have hword : IsOperandWord staff "id in (7, '8')" 7 ['7'] ⟨"id", .integer, [], false, false⟩ := by
    refine ⟨[(0, .plain .identifier ['i', 'd']), (3, .plain (.operator .oneOf) ['i', 'n']),
      (6, .plain .openParen ['('])], .number,
      [(8, .plain .comma [',']), (10, .quoted ['8']), (13, .plain .closeParen [')'])], ?_, rfl,
      rfl, ?_⟩
    · decide +kernel
    · decide +kernel
  have h : ofText staff ⟨0, 0⟩ "id in (7, '8')" = .ok ⟨[.leaf false none
      ⟨⟨"id", .integer, [], false, false⟩, []⟩ (.oneOf [.integer 7, .integer 8])]⟩ := by
    cbv
  rcases spelling staff ⟨0, 0⟩ with ⟨hstreams, htexts⟩
  refine ⟨hstreams _ _ (by decide +kernel) (by decide +kernel) hspelled, ?_⟩
  rw [h]
  exact (htexts _ _ _ _ _ h hword (by decide)).symm

end Filter

end RecordQuery
