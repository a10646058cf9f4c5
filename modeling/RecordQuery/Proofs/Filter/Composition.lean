import RecordQuery.Proofs.Clause.Folding
import RecordQuery.Proofs.Filter.WellFormed
import RecordQuery.Proofs.Grammar.Nesting
import RecordQuery.Proofs.Token.Locality

/-!
# Composing filters as texts

Filters may be put together as texts: with a conjunction between two of them, and in parentheses,
with `not` ahead of those or without. What comes out is what one means by it
(`ofText_compose`), whatever the texts are and however they end.

A text is closed if nothing in it is left open, and then what it stands for depends on its tokens
alone; `Grammar.DerivesText` says both of a text. Putting texts together puts their tokens together,
since scanning is local, and there are grammar rules for what comes out.
-/

namespace RecordQuery

namespace Clause

def joinTo (conjunction : Conjunction) : List Clause → List Clause
  | [] => []
  | [clause] => [clause.withConjunction (some conjunction)]
  | clause :: next :: clauses => clause :: joinTo conjunction (next :: clauses)

theorem joinTo_cons {clauses : List Clause} (conjunction : Conjunction) (clause : Clause)
    (h : clauses ≠ []) :
    joinTo conjunction (clause :: clauses) = clause :: joinTo conjunction clauses := by
  cases clauses with
  | nil => exact absurd rfl h
  | cons next clauses => rfl

theorem sequenceParameterCount_joinTo (conjunction : Conjunction) (clauses : List Clause) :
    sequenceParameterCount (joinTo conjunction clauses) = sequenceParameterCount clauses := by
  induction clauses with
  | nil => rfl
  | cons clause clauses ih =>
      cases clauses with
      | nil => simp [joinTo, sequenceParameterCount]
      | cons next clauses =>
          rw [joinTo_cons _ _ (List.cons_ne_nil _ _)]
          simp only [sequenceParameterCount] at ih ⊢
          rw [ih]

variable {ρ : Type} [Record ρ] (record : ρ)

theorem holds_groupOf (clauses : List Clause) :
    (Filter.groupOf clauses).holds record = sequenceHolds record clauses := by
  unfold Filter.groupOf
  split
  · next clause => rw [holds_withConjunction, sequenceHolds_singleton]
  · simp [holds]

end Clause

namespace Grammar

variable {catalog : Catalog} {now : Timestamp}

theorem DerivesSequence.append {depth others : Nat} {tokens rest : List Token} {joiner : Token}
    {clauses more : List Clause} {conjunction : Conjunction}
    (hjoiner : joiner.kind = conjunction.tokenKind) :
    DerivesSequence catalog now depth tokens clauses →
      DerivesSequence catalog now others rest more →
        DerivesSequence catalog now (max depth others) (tokens ++ joiner :: rest)
          (Clause.joinTo conjunction clauses ++ more)
  | .last clause, behind => .join clause hjoiner behind
  | .join clause joiner sequence, behind => by
      rw [Clause.joinTo_cons _ _ sequence.ne_nil, List.append_assoc, Nat.max_assoc]
      exact .join clause joiner (sequence.append hjoiner behind)

structure DerivesText (catalog : Catalog) (now : Timestamp) (depth : Nat) (text : String)
    (clauses : List Clause) : Prop where
  closed : (Scan.of 0 text.toList).opened = none
  derives : DerivesSequence catalog now depth (Scan.of 0 text.toList).tokens clauses

theorem of_keyword (conjunction : Conjunction) :
    Scan.of 0 conjunction.keyword.toList =
      Scan.cons 0 (.plain conjunction.tokenKind conjunction.keyword.toList) Scan.empty := by
  cases conjunction with
  | and =>
      rw [Scan.of_word 0 (by decide) (by decide)]
      rfl
  | or =>
      rw [Scan.of_word 0 (by decide) (by decide)]
      rfl

theorem DerivesText.join {depth others : Nat} {S T : String} {clauses more : List Clause}
    (conjunction : Conjunction) (hS : DerivesText catalog now depth S clauses)
    (hT : DerivesText catalog now others T more) :
    DerivesText catalog now (max depth others) (S ++ " " ++ conjunction.keyword ++ " " ++ T)
      (Clause.joinTo conjunction clauses ++ more) := by
  have htext : (S ++ " " ++ conjunction.keyword ++ " " ++ T).toList =
      S.toList ++ ' ' :: (conjunction.keyword.toList ++ ' ' :: T.toList) := by
    simp
  have hword : (Scan.of 0 conjunction.keyword.toList).opened = none := by
    rw [of_keyword, Scan.opened_cons, Scan.opened_empty]
  constructor
  · rw [htext, Scan.opened_of_append_space_iff _ hS.closed,
      Scan.opened_of_append_space_iff _ hword]
    exact hT.closed
  · rw [htext, Scan.tokens_of_append_space _ hS.closed, Scan.tokens_of_append_space _ hword,
      of_keyword, Scan.tokens_cons_plain, Scan.tokens_empty, List.cons_append, List.nil_append]
    exact hS.derives.append rfl ((((hT.derives.shift _).shift _).shift _).shift _)

theorem derivesNegation_of_scan (negated : Bool) (cs : List Char) :
    ∃ negation distance, DerivesNegation negation negated ∧
      (Scan.of 0 ((if negated then "not " else "").toList ++ cs)).tokens =
        negation ++ (Scan.of 0 cs).tokens.map (Token.shift distance) ∧
      ((Scan.of 0 ((if negated then "not " else "").toList ++ cs)).opened = none ↔
        (Scan.of 0 cs).opened = none) := by
  cases negated with
  | false =>
      refine ⟨[], 0, .absent, ?_, Iff.rfl⟩
      have hshift : Token.shift 0 = id := rfl
      simp [hshift]
  | true =>
      refine ⟨[⟨.not, "not", 0⟩], 4, .present rfl, ?_, ?_⟩
      · change (Scan.of 0 ('n' :: 'o' :: 't' :: ' ' :: cs)).tokens = _
        rw [Scan.of_not, Scan.tokens_cons_plain, Scan.tokens_shift]
        rfl
      · change (Scan.of 0 ('n' :: 'o' :: 't' :: ' ' :: cs)).opened = none ↔ _
        rw [Scan.of_not, Scan.opened_cons, Scan.opened_shift_eq_none_iff]

theorem DerivesText.enclose {depth : Nat} {S : String} {clauses : List Clause} (negated : Bool)
    (hS : DerivesText catalog now depth S clauses) :
    DerivesText catalog now (depth + 1) ((if negated then "not " else "") ++ "(" ++ S ++ ")")
      [(Filter.groupOf clauses).negateIf negated] := by
  have htext : ((if negated then "not " else "") ++ "(" ++ S ++ ")").toList =
      (if negated then "not " else "").toList ++ '(' :: (S.toList ++ [')']) := by
    simp
  obtain ⟨negation, distance, derivesNegation, htokens, hopened⟩ :=
    derivesNegation_of_scan negated ('(' :: (S.toList ++ [')']))
  constructor
  · rw [htext, hopened, Scan.of_openParen, Scan.opened_cons, Scan.opened_shift_eq_none_iff,
      Scan.opened_of_append_iff (Lexeme.breaks_closeParen []) hS.closed, Scan.of_closeParen,
      Scan.opened_cons, Scan.opened_empty]
  · rw [htext, htokens, Scan.of_openParen, Scan.tokens_cons_plain, Scan.tokens_shift,
      Scan.tokens_of_append (Lexeme.breaks_closeParen []) hS.closed, Scan.of_closeParen,
      Scan.tokens_cons_plain, Scan.tokens_empty]
    simp only [List.map_cons, List.map_append, List.map_nil]
    exact .last (Filter.derivesClause_of_derivesSequence derivesNegation rfl
      ((hS.derives.shift _).shift _) rfl)

def textNesting (text : String) : Nat :=
  nesting (Scan.of 0 text.toList).tokens

end Grammar

namespace Filter

open Grammar

variable {catalog : Catalog} {now : Timestamp}

/-- What is read from a text that is not blank is derived from it, with no deeper nesting than is
allowed and no more literals. -/
theorem derivesText_of_ofText {text : String} {f : Filter} (h : ofText catalog now text = .ok f)
    (visible : Text.isBlank text = false) :
    DerivesText catalog now (textNesting text) text f.clauses ∧
      textNesting text ≤ maxGroupDepth := by
  rcases ofText_eq_ok_iff.1 h with ⟨closed, derives⟩
  rcases derives.clauses with ⟨hempty, -⟩ | ⟨depth, hdepth, sequence⟩
  · exact absurd hempty (Scan.tokens_ne_nil closed visible)
  · have hnesting : textNesting text = depth := sequence.nesting_eq
    rw [hnesting]
    exact ⟨⟨closed, sequence⟩, hdepth⟩

theorem ofText_of_derivesText {depth : Nat} {text : String} {clauses : List Clause}
    (h : DerivesText catalog now depth text clauses) (hdepth : depth ≤ maxGroupDepth)
    (allowed : catalog.Allows (Clause.sequenceParameterCount clauses)) :
    ofText catalog now text = .ok ⟨clauses⟩ :=
  ofText_eq_ok_iff.2 ⟨h.closed, .inr ⟨depth, hdepth, h.derives⟩, allowed⟩

theorem allows_of_ofText {text : String} {f : Filter} (h : ofText catalog now text = .ok f) :
    catalog.Allows f.parameterCount :=
  (ofText_eq_ok_iff.1 h).2.allowed

theorem holds_enclosed {ρ : Type} [Record ρ] (record : ρ) (negated : Bool) (f : Filter) :
    (Filter.mk [(groupOf f.clauses).negateIf negated]).holds record =
      (f.holds record != negated) := by
  rw [holds, Clause.sequenceHolds_singleton, Clause.holds_negateIf, Clause.holds_groupOf, holds]

theorem holds_joined {ρ : Type} [Record ρ] (record : ρ) (conjunction : Conjunction)
    (f g : Filter) :
    (Filter.mk (Clause.joinTo conjunction [(groupOf f.clauses).negateIf false] ++
      [(groupOf g.clauses).negateIf false])).holds record =
        joinBy (some conjunction) (f.holds record) (g.holds record) := by
  rw [Clause.joinTo, List.singleton_append, holds, Clause.sequenceHolds_pair,
    Clause.holds_negateIf, Clause.holds_negateIf, Clause.holds_groupOf, Clause.holds_groupOf,
    Bool.bne_false, Bool.bne_false, holds, holds]

theorem ofText_enclose {S : String} {f : Filter} (negated : Bool)
    (hS : ofText catalog now S = .ok f) (visible : Text.isBlank S = false)
    (hdepth : textNesting S < maxGroupDepth) :
    ofText catalog now ((if negated then "not " else "") ++ "(" ++ S ++ ")") =
      .ok ⟨[(groupOf f.clauses).negateIf negated]⟩ := by
  rcases derivesText_of_ofText hS visible with ⟨derives, -⟩
  apply ofText_of_derivesText (derives.enclose negated) hdepth
  have allowed := allows_of_ofText hS
  rw [parameterCount] at allowed
  simpa [Clause.sequenceParameterCount, parameterCount_groupOf] using allowed

theorem ofText_join_enclosed {S T : String} {f g : Filter} (conjunction : Conjunction)
    (hS : ofText catalog now S = .ok f) (hT : ofText catalog now T = .ok g)
    (visibleS : Text.isBlank S = false) (visibleT : Text.isBlank T = false)
    (allowed : catalog.Allows (f.parameterCount + g.parameterCount))
    (hdepthS : textNesting S < maxGroupDepth) (hdepthT : textNesting T < maxGroupDepth) :
    ofText catalog now ("(" ++ S ++ (") " ++ conjunction.keyword ++ " (") ++ T ++ ")") =
      .ok ⟨Clause.joinTo conjunction [(groupOf f.clauses).negateIf false] ++
        [(groupOf g.clauses).negateIf false]⟩ := by
  rcases derivesText_of_ofText hS visibleS with ⟨derivesS, -⟩
  rcases derivesText_of_ofText hT visibleT with ⟨derivesT, -⟩
  have derives := (derivesS.enclose false).join conjunction (derivesT.enclose false)
  have htext : (if false then "not " else "") ++ "(" ++ S ++ ")" ++ " " ++ conjunction.keyword ++
      " " ++ ((if false then "not " else "") ++ "(" ++ T ++ ")") =
        "(" ++ S ++ (") " ++ conjunction.keyword ++ " (") ++ T ++ ")" := by
    rw [← String.toList_inj]
    simp
  rw [htext] at derives
  apply ofText_of_derivesText derives (Nat.max_le.2 ⟨hdepthS, hdepthT⟩)
  rw [parameterCount, parameterCount] at allowed
  simpa [Clause.joinTo, Clause.sequenceParameterCount, parameterCount_groupOf] using allowed

/-- Texts of filters put together stand for the filters put together. With a conjunction between two
texts, the clauses of the one are joined to those of the other. In parentheses, with `not` ahead of
them or without, a text matches what it matched, or exactly what it did not match; and two texts in
parentheses match together what both match, or what one of them matches. -/
theorem ofText_compose {S T : String} {f g : Filter}
    (hS : ofText catalog now S = .ok f) (hT : ofText catalog now T = .ok g)
    (visibleS : Text.isBlank S = false) (visibleT : Text.isBlank T = false) :
    (catalog.Allows (f.parameterCount + g.parameterCount) → ∀ conjunction : Conjunction,
      ofText catalog now (S ++ " " ++ conjunction.keyword ++ " " ++ T) =
        .ok ⟨Clause.joinTo conjunction f.clauses ++ g.clauses⟩) ∧
    (textNesting S < maxGroupDepth →
      (∃ grouped, ofText catalog now ("(" ++ S ++ ")") = .ok grouped ∧
        (∀ {ρ : Type} [Record ρ] (record : ρ), grouped.holds record = f.holds record) ∧
        (f.clauses.length = 1 → grouped = f)) ∧
      ∃ negated, ofText catalog now ("not (" ++ S ++ ")") = .ok negated ∧
        ∀ {ρ : Type} [Record ρ] (record : ρ), negated.holds record = !f.holds record) ∧
    (catalog.Allows (f.parameterCount + g.parameterCount) →
      textNesting S < maxGroupDepth → textNesting T < maxGroupDepth →
      (∃ both, ofText catalog now ("(" ++ S ++ ") and (" ++ T ++ ")") = .ok both ∧
        ∀ {ρ : Type} [Record ρ] (record : ρ),
          both.holds record = (f.holds record && g.holds record)) ∧
      ∃ either, ofText catalog now ("(" ++ S ++ ") or (" ++ T ++ ")") = .ok either ∧
        ∀ {ρ : Type} [Record ρ] (record : ρ),
          either.holds record = (f.holds record || g.holds record)) := by
  rcases derivesText_of_ofText hS visibleS with ⟨derivesS, depthS⟩
  rcases derivesText_of_ofText hT visibleT with ⟨derivesT, depthT⟩
  refine ⟨fun allowed conjunction => ?_, fun hdepth => ⟨?_, ?_⟩, fun allowed hdepthS hdepthT => ?_⟩
  · apply ofText_of_derivesText (derivesS.join conjunction derivesT) (Nat.max_le.2 ⟨depthS, depthT⟩)
    rw [Clause.sequenceParameterCount_append, Clause.sequenceParameterCount_joinTo]
    exact allowed
  · refine ⟨⟨[(groupOf f.clauses).negateIf false]⟩, ?_, ?_, ?_⟩
    · exact ofText_enclose false hS visibleS hdepth
    · intro ρ _ record
      rw [holds_enclosed, Bool.bne_false]
    · intro single
      rcases List.length_eq_one_iff.1 single with ⟨clause, hclause⟩
      have derives := derivesS.derives
      rw [hclause] at derives
      rw [hclause, Clause.negateIf_false, groupOf_singleton derives.conjunction_of_single,
        ← hclause]
  · refine ⟨⟨[(groupOf f.clauses).negateIf true]⟩, ?_, ?_⟩
    · exact ofText_enclose true hS visibleS hdepth
    · intro ρ _ record
      rw [holds_enclosed, Bool.bne_true]
  · have hand := ofText_join_enclosed .and hS hT visibleS visibleT allowed hdepthS hdepthT
    have hor := ofText_join_enclosed .or hS hT visibleS visibleT allowed hdepthS hdepthT
    rw [show ") " ++ Conjunction.and.keyword ++ " (" = ") and (" by decide] at hand
    rw [show ") " ++ Conjunction.or.keyword ++ " (" = ") or (" by decide] at hor
    refine ⟨⟨_, hand, ?_⟩, _, hor, ?_⟩
    · intro ρ _ record
      rw [holds_joined, joinBy]
    · intro ρ _ record
      rw [holds_joined, joinBy]

theorem ofText_compose_range_key :
    ∃ f g, ofText staff ⟨0, 0⟩ "not id between 1 and 2" = .ok f ∧
      ofText staff ⟨0, 0⟩ "((meta[\"a\"] eq 'it''s'))" = .ok g ∧
      ofText staff ⟨0, 0⟩
          ("not id between 1 and 2" ++ " " ++ "or" ++ " " ++ "((meta[\"a\"] eq 'it''s'))") =
        .ok ⟨Clause.joinTo .or f.clauses ++ g.clauses⟩ ∧
      ∃ both, ofText staff ⟨0, 0⟩
          ("(" ++ "not id between 1 and 2" ++ ") and (" ++ "((meta[\"a\"] eq 'it''s'))" ++ ")") =
            .ok both ∧
        ∀ {ρ : Type} [Record ρ] (record : ρ),
          both.holds record = (f.holds record && g.holds record) := by
  have hf : ofText staff ⟨0, 0⟩ "not id between 1 and 2" = .ok ⟨[
      .leaf true none ⟨⟨"id", .integer, [], false, false⟩, []⟩
        (.between (.integer 1) (.integer 2))]⟩ := by
    cbv
  have hg : ofText staff ⟨0, 0⟩ "((meta[\"a\"] eq 'it''s'))" = .ok ⟨[
      .leaf false none ⟨⟨"meta", .json, [], true, false⟩, ["a"]⟩
        (.criterion (.relation .equal) (some (.string "it's")))]⟩ := by
    cbv
  have allowed : staff.Allows 3 := by
    rintro _ ⟨⟩
    decide
  have depthS : textNesting "not id between 1 and 2" < maxGroupDepth := by
    decide +kernel
  have depthT : textNesting "((meta[\"a\"] eq 'it''s'))" < maxGroupDepth := by
    decide +kernel
  rcases ofText_compose hf hg (by decide) (by decide) with ⟨join, -, enclosed⟩
  exact ⟨_, _, hf, hg, join allowed .or, (enclosed allowed depthS depthT).1⟩

end Filter

end RecordQuery
