import RecordQuery.Clause.Same
import RecordQuery.Proofs.Catalog.Words
import RecordQuery.Proofs.Filter.Composition
import RecordQuery.Proofs.Literal.RoundTrip

/-!
# Reading what is written of tests

The text of a test of one field, piece by piece: the name of the column, the keys behind it, the
operator, and the literals. Every piece is closed and ends where a break follows, so the tokens of
the test are those of its pieces, and the grammar derives the same test from them.
-/

namespace RecordQuery

namespace Lexeme

def keyEnd : List Char := ['"', ']']

theorem splitKey_append_keyEnd {name : List Char} (h : ¬keyEnd <:+: name) (rest : List Char) :
    splitKey (name ++ (keyEnd ++ rest)) = some (name, rest) := by
  induction name with
  | nil => rfl
  | cons c cs ih =>
      have hcs : ¬keyEnd <:+: cs := fun hpart => h (hpart.trans (List.suffix_cons c cs).isInfix)
      rw [List.cons_append, splitKey, ih hcs]
      · rfl
      · rintro more rfl heq
        cases cs with
        | nil =>
            have hquote := (List.cons.inj heq).1
            exact absurd hquote (by decide)
        | cons d ds =>
            rcases List.cons.inj heq with ⟨rfl, -⟩
            exact h ⟨[], ds, rfl⟩

theorem scan_key {name : List Char} (h : ¬keyEnd <:+: name) :
    Scan.of 0 (Lexeme.key name).source = Scan.cons 0 (.key name) Scan.empty := by
  have htake : take '[' ('"' :: (name ++ (keyEnd ++ []))) = .ok (.key name, []) := by
    rw [take, splitKey_append_keyEnd h]
  rw [List.append_nil] at htake
  rw [source, List.cons_append, List.cons_append]
  rw [show ['"', ']'] = keyEnd from rfl, Scan.of_lexeme 0 (by decide) htake, Scan.of_nil]

end Lexeme

namespace Path

theorem breaks_writeKeys (keys : List String) : Lexeme.Breaks (writeKeys keys).toList := by
  cases keys with
  | nil => exact Lexeme.breaks_nil
  | cons key keys =>
      rw [writeKeys, String.toList_append, String.toList_ofList]
      exact Lexeme.breaks_cons.2 (by decide)

/-- Keys that do not close their segments themselves are derived from what is written of them. -/
theorem derivesKeys_writeKeys {column : Column} {keys : List String}
    (nested : keys ≠ [] → column.nested = true)
    (hkeys : ∀ key ∈ keys, ¬Lexeme.keyEnd <:+: key.toList) :
    (Scan.of 0 (writeKeys keys).toList).opened = none ∧
      Grammar.DerivesKeys column (Scan.of 0 (writeKeys keys).toList).tokens keys := by
  induction keys with
  | nil =>
      rw [writeKeys, String.toList_empty, Scan.of_nil]
      exact ⟨rfl, .nil⟩
  | cons key keys ih =>
      have hnested : column.nested = true := nested (List.cons_ne_nil _ _)
      obtain ⟨hclosed, hderives⟩ :=
        ih (fun _ => hnested) (fun other hother => hkeys other (List.mem_cons_of_mem _ hother))
      have hscan := Lexeme.scan_key (hkeys key List.mem_cons_self)
      have hkey : (Scan.of 0 (Lexeme.key key.toList).source).opened = none := by
        rw [hscan]
        rfl
      rw [writeKeys, String.toList_append, String.toList_ofList]
      refine ⟨(Scan.opened_of_append_iff (breaks_writeKeys keys) hkey).2 hclosed, ?_⟩
      rw [Scan.tokens_of_append (breaks_writeKeys keys) hkey, hscan, Scan.tokens_cons,
        Scan.tokens_empty, Lexeme.tokens, String.ofList_toList]
      exact .cons hnested rfl rfl rfl (hderives.shift _)

end Path

namespace Operator

theorem scan_keyword (op : Operator) :
    Scan.of 0 op.keyword.toList =
      Scan.cons 0 (.plain (.operator op) op.keyword.toList) Scan.empty := by
  have hmem : op ∈ all := by
    cases op with
    | relation r => cases r <;> decide
    | text t => cases t <;> decide
    | between | oneOf | is => decide
  have hkeywords : ∀ op ∈ all, op.keyword.toList ≠ [] ∧
      Lexeme.isUndelimited op.keyword.toList = true ∧
      Lexeme.wordKind op.keyword.toList = .operator op := by
    decide +kernel
  rcases hkeywords op hmem with ⟨hne, hword, hkind⟩
  rw [Scan.of_word 0 hne hword, hkind]

theorem tokens_keyword_append (op : Operator) (cs : List Char) :
    (Scan.of 0 (op.keyword.toList ++ ' ' :: cs)).tokens =
      ⟨.operator op, op.keyword, 0⟩ ::
        ((Scan.of 0 cs).tokens.map (Token.shift 1)).map (Token.shift op.keyword.toList.length) := by
  have hclosed : (Scan.of 0 op.keyword.toList).opened = none := by
    rw [scan_keyword]
    rfl
  rw [Scan.tokens_of_append_space cs hclosed, scan_keyword, Scan.tokens_cons_plain,
    Scan.tokens_empty, String.ofList_toList]
  rfl

theorem closed_keyword (op : Operator) : (Scan.of 0 op.keyword.toList).opened = none := by
  rw [scan_keyword]
  rfl

end Operator

namespace Test

open Grammar

variable {now : Timestamp} {column : Column}

/-- The text is closed, and the grammar derives from it a test that is the same as the given one. -/
structure DerivesTestText (now : Timestamp) (column : Column) (cs : List Char) (test : Test) :
    Prop where
  closed : (Scan.of 0 cs).opened = none
  derives : ∃ test', DerivesTest now column (Scan.of 0 cs).tokens test' ∧ test.same test' = true

theorem operand_of_denotes {cs : List Char} {v : Value}
    (h : Literal.Denotes now column.type cs v) :
    ∃ token w, (Scan.of 0 cs).tokens = [token] ∧ Operand now column token w ∧ v.same w = true := by
  rcases h.denotes with ⟨token, w, htokens, hliteral, hconvert, hsame⟩
  exact ⟨token, w, htokens, ⟨hliteral, hconvert⟩, hsame⟩

theorem derivesValues_intercalate {vs : List Value} (hne : vs ≠ [])
    (h : ∀ v ∈ vs, Literal.Denotes now column.type v.writeLiteral.toList v) :
    (Scan.of 0 (", ".intercalate (vs.map Value.writeLiteral)).toList).opened = none ∧
      ∃ vs', DerivesValues now column
          (Scan.of 0 (", ".intercalate (vs.map Value.writeLiteral)).toList).tokens vs' ∧
        Value.sameItems vs vs' = true := by
  induction vs with
  | nil => exact absurd rfl hne
  | cons v vs ih =>
      have hv := h v List.mem_cons_self
      rcases operand_of_denotes hv with ⟨token, w, htokens, operand, hsame⟩
      cases vs with
      | nil =>
          have htext : ", ".intercalate ([v].map Value.writeLiteral) = v.writeLiteral := rfl
          rw [htext, htokens]
          exact ⟨hv.closed, [w], .last operand, by simp [Value.sameItems, hsame]⟩
      | cons next vs =>
          obtain ⟨hclosed, ws, derives, hsames⟩ :=
            ih (List.cons_ne_nil _ _) fun other hother => h other (List.mem_cons_of_mem _ hother)
          have htext : (", ".intercalate ((v :: next :: vs).map Value.writeLiteral)).toList =
              v.writeLiteral.toList ++
                ',' :: ' ' :: (", ".intercalate ((next :: vs).map Value.writeLiteral)).toList := by
            simp [String.toList_intercalate]
          rw [htext]
          refine ⟨(Scan.opened_of_append_comma_iff _ hv.closed).2 hclosed, w :: ws, ?_,
            by simp [Value.sameItems, hsame, hsames]⟩
          rw [Scan.tokens_of_append_comma _ hv.closed, htokens]
          exact .cons operand rfl (derives.shift _)

theorem derivesTest_null :
    DerivesTestText now column "is null".toList (.criterion .isNull none) := by
  have htokens : (Scan.of 0 "is null".toList).tokens =
      [⟨.operator .is, "is", 0⟩, ⟨.null, "null", 3⟩] := by
    decide +kernel
  constructor
  · decide +kernel
  · rw [htokens]
    exact ⟨_, .isNull rfl rfl, rfl⟩

theorem derivesTest_notNull :
    DerivesTestText now column "is not null".toList (.criterion .isNotNull none) := by
  have htokens : (Scan.of 0 "is not null".toList).tokens =
      [⟨.operator .is, "is", 0⟩, ⟨.not, "not", 3⟩, ⟨.null, "null", 7⟩] := by
    decide +kernel
  constructor
  · decide +kernel
  · rw [htokens]
    exact ⟨_, .isNotNull rfl rfl rfl, rfl⟩

/-- An operator and one literal, by the rule of the grammar for that operator. -/
theorem derivesTest_criterion {operation : Operation} {op : Operator} {v : Value}
    (hkeyword : operation.keyword = op.keyword)
    (rule : ∀ {operator token : Token} {w : Value}, operator.kind = .operator op →
      Operand now column token w →
      DerivesTest now column [operator, token] (.criterion operation (some w)))
    (h : Literal.Denotes now column.type v.writeLiteral.toList v) :
    DerivesTestText now column (Test.criterion operation (some v)).write.toList
      (.criterion operation (some v)) := by
  have htext : (Test.criterion operation (some v)).write.toList =
      op.keyword.toList ++ ' ' :: v.writeLiteral.toList := by
    simp [write, hkeyword]
  rcases operand_of_denotes h with ⟨token, w, htokens, operand, hsame⟩
  rw [htext]
  constructor
  · rw [Scan.opened_of_append_space_iff _ (Operator.closed_keyword op)]
    exact h.closed
  · rw [Operator.tokens_keyword_append, htokens]
    exact ⟨_, rule rfl ((operand.shift _).shift _), by simp [same, hsame]⟩

theorem derivesTest_between {lower upper : Value}
    (hlower : Literal.Denotes now column.type lower.writeLiteral.toList lower)
    (hupper : Literal.Denotes now column.type upper.writeLiteral.toList upper) :
    DerivesTestText now column (Test.between lower upper).write.toList (.between lower upper) := by
  have htext : (Test.between lower upper).write.toList = Operator.between.keyword.toList ++
      ' ' :: (lower.writeLiteral.toList ++
        ' ' :: (Conjunction.and.keyword.toList ++ ' ' :: upper.writeLiteral.toList)) := by
    simp [write, Operator.keyword, Conjunction.keyword]
  have hand : (Scan.of 0 Conjunction.and.keyword.toList).opened = none := by
    rw [of_keyword]
    rfl
  rcases operand_of_denotes hlower with ⟨first, l, hfirst, operandLower, hsameLower⟩
  rcases operand_of_denotes hupper with ⟨second, u, hsecond, operandUpper, hsameUpper⟩
  rw [htext]
  constructor
  · rw [Scan.opened_of_append_space_iff _ (Operator.closed_keyword _),
      Scan.opened_of_append_space_iff _ hlower.closed, Scan.opened_of_append_space_iff _ hand]
    exact hupper.closed
  · rw [Operator.tokens_keyword_append, Scan.tokens_of_append_space _ hlower.closed, hfirst,
      Scan.tokens_of_append_space _ hand, of_keyword, hsecond]
    refine ⟨.between l u, ?_, by simp [same, hsameLower, hsameUpper]⟩
    exact .between rfl ((operandLower.shift _).shift _) rfl
      ((((((operandUpper.shift _).shift _).shift _).shift _).shift _).shift _)

theorem derivesTest_oneOf {vs : List Value} (hne : vs ≠ [])
    (h : ∀ v ∈ vs, Literal.Denotes now column.type v.writeLiteral.toList v) :
    DerivesTestText now column (Test.oneOf vs).write.toList (.oneOf vs) := by
  have htext : (Test.oneOf vs).write.toList = Operator.oneOf.keyword.toList ++
      ' ' :: '(' :: ((", ".intercalate (vs.map Value.writeLiteral)).toList ++ [')']) := by
    simp [write, Operator.keyword]
  rcases derivesValues_intercalate hne h with ⟨hclosed, ws, derives, hsame⟩
  rw [htext]
  constructor
  · rw [Scan.opened_of_append_space_iff _ (Operator.closed_keyword _), Scan.of_openParen,
      Scan.opened_cons, Scan.opened_shift_eq_none_iff,
      Scan.opened_of_append_iff (Lexeme.breaks_closeParen []) hclosed, Scan.of_closeParen]
    rfl
  · rw [Operator.tokens_keyword_append, Scan.of_openParen, Scan.tokens_cons_plain,
      Scan.tokens_shift, Scan.tokens_of_append (Lexeme.breaks_closeParen []) hclosed,
      Scan.of_closeParen]
    refine ⟨.oneOf ws, ?_, by simp [same, hsame]⟩
    simp only [List.map_cons, List.map_append]
    exact .oneOf rfl rfl (((derives.shift _).shift _).shift _) rfl

theorem derivesTest_write {test : Test} (wellFormed : test.WellFormed column.type)
    (hliterals : ∀ v ∈ test.literals, v.IsLiteralOf column.type ∧ v.HasShortYear) :
    DerivesTestText now column test.write.toList test := by
  have denotes : ∀ v ∈ test.literals,
      Literal.Denotes now column.type v.writeLiteral.toList v :=
    fun v hv => Literal.denotes_writeLiteral (hliterals v hv).1 (hliterals v hv).2
  cases test with
  | criterion operation value =>
      rcases wellFormed with ⟨hvalue, htext⟩
      cases value with
      | none =>
          rcases hvalue.1 rfl with rfl | rfl
          · exact derivesTest_null
          · exact derivesTest_notNull
      | some v =>
          have hv := denotes v (by simp [literals])
          cases operation with
          | relation r => exact derivesTest_criterion rfl (fun hkind => .relation hkind) hv
          | text t =>
              have supported := FieldType.supportsTextTests_iff.2 (htext t rfl)
              exact derivesTest_criterion rfl (fun hkind => .text hkind supported) hv
          | isNull => simp at hvalue
          | isNotNull => simp at hvalue
  | between lower upper =>
      exact derivesTest_between (denotes lower (by simp [literals]))
        (denotes upper (by simp [literals]))
  | oneOf values => exact derivesTest_oneOf wellFormed denotes

end Test

end RecordQuery
