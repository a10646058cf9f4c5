import RecordQuery.Proofs.Reading

/-!
# Reading the test of a column

The readers of keys, lists of literals and tests succeed exactly on what the grammar derives, with
exactly what it derives: such a reader goes from `c` to `c'` with a result if and only if the tokens
between the two derive that result. Together they give the reader of a clause that tests a column
(`readLeaf_eq_ok_iff`).

Keys and lists are read in loops, so their statements are inductions. The reader of keys stops at
the first token that opens no key segment; behind keys comes an operator, so that is where the
keys of a derivation end as well.
-/

namespace RecordQuery

namespace Filter

open Grammar Reading

variable {r : Reading} {column : Column} {c c' : Cursor}

theorem derivesKeys_of_readKeys {tokens rest : List Token} {keys : List String}
    (h : readKeys r column tokens = .ok (keys, rest)) :
    ∃ taken, DerivesKeys column taken keys ∧ tokens = taken ++ rest := by
  fun_induction readKeys r column tokens generalizing keys with
  | case1 =>
      cases h
      exact ⟨[], .nil, rfl⟩
  | case2 | case3 | case5 | case6 | case7 => cases h
  | case4 opening hopening hnested name hname closing tokens hclosing ih =>
      rcases bind_eq_ok_iff.1 h with ⟨⟨others, rest'⟩, hothers, h⟩
      cases h
      rcases ih hothers with ⟨taken, derives, rfl⟩
      exact ⟨opening :: name :: closing :: taken,
        .cons hnested hopening hname hclosing derives, rfl⟩
  | case8 opening tokens _ =>
      cases h
      exact ⟨[], .nil, rfl⟩

theorem readKeys_of_derivesKeys {taken rest : List Token} {keys : List String}
    (h : DerivesKeys column taken keys)
    (hrest : ∀ token, rest.head? = some token → token.kind ≠ .openBracket) :
    readKeys r column (taken ++ rest) = .ok (keys, rest) := by
  induction h with
  | nil =>
      cases rest with
      | nil => rfl
      | cons token rest =>
          have hkind : token.kind ≠ .openBracket := hrest token rfl
          unfold readKeys
          simp [hkind]
  | cons nested opening name closing _ ih =>
      simp only [List.cons_append, readKeys, opening, nested, name, closing, if_true]
      exact bind_eq_ok_iff.2 ⟨_, ih, rfl⟩

theorem derivesValues_of_readValues :
    ∀ {tokens : List Token} {parameters : Nat} {vs : List Value} {c' : Cursor},
      readValues r column parameters tokens = .ok (vs, c') →
      ∃ taken closing, DerivesValues r.now column taken vs ∧ closing.kind = .closeParen ∧
        r.Advances ⟨tokens, parameters⟩ (taken ++ [closing]) vs.length c'
  | [], _, _, _, h => by cases h
  | [token], _, _, _, h => by
      rw [readValues] at h
      rcases bind_eq_ok_iff.1 h with ⟨v, _, h⟩
      cases h
  | token :: separator :: tokens, parameters, _, _, h => by
      rw [readValues] at h
      rcases bind_eq_ok_iff.1 h with ⟨v, hv, h⟩
      rcases literal_eq_ok_iff.1 hv with ⟨operand, allowed⟩
      dsimp only at h
      split at h
      · next hcomma =>
          rcases bind_eq_ok_iff.1 h with ⟨⟨others, d⟩, hothers, h⟩
          cases h
          rcases derivesValues_of_readValues hothers with ⟨taken, closing, derives, hclosing, step⟩
          refine ⟨token :: separator :: taken, closing, .cons operand hcomma derives,
            hclosing, ?_⟩
          have first : r.Advances ⟨token :: separator :: tokens, parameters⟩ [token, separator] 1
              ⟨tokens, parameters + 1⟩ := ⟨rfl, rfl, fun _ => allowed⟩
          have both := first.trans step
          rwa [Nat.add_comm] at both
      · split at h
        · next hclosing =>
            cases h
            exact ⟨[token], separator, .last operand, hclosing, rfl, rfl, fun _ => allowed⟩
        · cases h

theorem readValues_of_derivesValues {taken : List Token} {vs : List Value} {closing : Token}
    (h : DerivesValues r.now column taken vs) (hclosing : closing.kind = .closeParen)
    (parameters : Nat)
    (step : r.Advances ⟨taken ++ closing :: c'.tokens, parameters⟩ (taken ++ [closing])
      vs.length c') :
    readValues r column parameters (taken ++ closing :: c'.tokens) = .ok (vs, c') := by
  induction h generalizing parameters with
  | last operand =>
      have allowed : r.catalog.Allows (parameters + 1) :=
        (step.allowed (by simp)).mono (by simp [step.parameters])
      have hv := literal_eq_ok_iff.2 ⟨operand, allowed⟩
      have hp : c'.parameters = parameters + 1 := step.parameters
      simp only [List.cons_append, List.nil_append, readValues, hclosing]
      refine bind_eq_ok_iff.2 ⟨_, hv, ?_⟩
      simp [← hp]
  | @cons token comma tokens v vs operand hcomma _ ih =>
      obtain ⟨middle, first, rest⟩ : ∃ middle, r.Advances _ [token, comma] 1 middle ∧
          r.Advances middle (tokens ++ [closing]) vs.length c' :=
        Advances.split (by simpa [Nat.add_comm] using step)
      have allowed : r.catalog.Allows (parameters + 1) := by
        have := first.allowed (by simp)
        rwa [first.parameters] at this
      have hv := literal_eq_ok_iff.2 ⟨operand, allowed⟩
      simp only [List.cons_append, readValues, hcomma, if_true]
      refine bind_eq_ok_iff.2 ⟨_, hv, bind_eq_ok_iff.2 ⟨_, ih (parameters + 1) ?_, rfl⟩⟩
      exact ⟨by simp, by rw [rest.parameters, first.parameters], rest.allowed⟩

/-- A list begins with an operand, so the check for an empty one does not meet it. -/
theorem kind_ne_closeParen_of_derivesValues {now : Timestamp} {token : Token}
    {tokens : List Token} {vs : List Value}
    (h : DerivesValues now column (token :: tokens) vs) : token.kind ≠ .closeParen := by
  intro hclose
  cases h with
  | last operand =>
      have := operand.isLiteral
      simp [Token.isLiteral, hclose, TokenKind.isLiteral] at this
  | cons operand _ _ =>
      have := operand.isLiteral
      simp [Token.isLiteral, hclose, TokenKind.isLiteral] at this

theorem readList_eq_ok_iff {vs : List Value} :
    readList r column c = .ok (vs, c') ↔
      ∃ opening taken closing, opening.kind = .openParen ∧ DerivesValues r.now column taken vs ∧
        closing.kind = .closeParen ∧
        r.Advances c (opening :: (taken ++ [closing])) vs.length c' := by
  rw [readList, bind_eq_ok_iff]
  constructor
  · rintro ⟨⟨opening, d⟩, hopen, h⟩
    rcases expect_eq_ok_iff.1 hopen with ⟨hopening, first⟩
    have hvalues : readValues r column d.parameters d.tokens = .ok (vs, c') := by
      dsimp only at h
      split at h
      · next token tokens heq =>
          split at h
          · cases h
          · rwa [heq]
      · next heq => rwa [heq]
    rcases derivesValues_of_readValues hvalues with ⟨taken, closing, derives, hclosing, rest⟩
    refine ⟨opening, taken, closing, hopening, derives, hclosing, ?_⟩
    simpa using first.trans rest
  · rintro ⟨opening, taken, closing, hopening, derives, hclosing, step⟩
    rcases step.split_cons with ⟨⟨tokens, parameters⟩, first, rest⟩
    obtain rfl : tokens = taken ++ closing :: c'.tokens := by simpa using rest.tokens
    have hvalues := readValues_of_derivesValues derives hclosing parameters rest
    refine ⟨(opening, _), expect_eq_ok_iff.2 ⟨hopening, first⟩, ?_⟩
    cases taken with
    | nil => nomatch derives
    | cons token taken =>
        have hkind := kind_ne_closeParen_of_derivesValues derives
        dsimp only [List.cons_append]
        rw [if_neg hkind]
        exact hvalues

theorem readNullTest_eq_ok_iff (column : Column) {operator : Token}
    (hoperator : operator.kind = .operator .is) {test : Test} :
    readNullTest r c = .ok (test, c') ↔
      ∃ taken, DerivesTest r.now column (operator :: taken) test ∧ r.Advances c taken 0 c' := by
  rw [readNullTest, bind_eq_ok_iff]
  constructor
  · rintro ⟨⟨token, d⟩, hnext, h⟩
    have first := next_eq_ok_iff.1 hnext
    dsimp only at h
    split at h
    · next hnot =>
        rcases bind_eq_ok_iff.1 h with ⟨⟨null, e⟩, hnull, h⟩
        rcases expect_eq_ok_iff.1 hnull with ⟨hnull, second⟩
        cases h
        exact ⟨[token, null], .isNotNull hoperator hnot hnull, first.trans second⟩
    · split at h
      · next hnull =>
          cases h
          exact ⟨[token], .isNull hoperator hnull, first⟩
      · cases h
  · rintro ⟨taken, derives, step⟩
    cases derives with
    | isNull _ hnull =>
        refine ⟨_, next_eq_ok_iff.2 step, ?_⟩
        simp [hnull]
    | isNotNull _ hnot hnull =>
        rcases step.split_cons with ⟨d, first, second⟩
        refine ⟨_, next_eq_ok_iff.2 first, ?_⟩
        simp only [hnot, if_true]
        exact bind_eq_ok_iff.2 ⟨_, expect_eq_ok_iff.2 ⟨hnull, second⟩, rfl⟩
    | relation hkind _ | text hkind _ _ | between hkind _ _ _ | oneOf hkind _ _ _ =>
        rw [hoperator] at hkind
        cases hkind

theorem readBounds_eq_ok_iff {test : Test} :
    readBounds r column c = .ok (test, c') ↔
      ∃ first and second lower upper, Operand r.now column first lower ∧ and.kind = .and ∧
        Operand r.now column second upper ∧ test = .between lower upper ∧
        r.Advances c [first, and, second] 2 c' := by
  rw [readBounds, bind_eq_ok_iff]
  constructor
  · rintro ⟨⟨lower, d⟩, hlower, h⟩
    rcases bind_eq_ok_iff.1 h with ⟨⟨and, e⟩, hand, h⟩
    rcases bind_eq_ok_iff.1 h with ⟨⟨upper, f⟩, hupper, h⟩
    rcases value_eq_ok_iff.1 hlower with ⟨first, operand, step⟩
    rcases expect_eq_ok_iff.1 hand with ⟨hand, step'⟩
    rcases value_eq_ok_iff.1 hupper with ⟨second, operand', step''⟩
    cases h
    exact ⟨first, and, second, lower, upper, operand, hand, operand', rfl,
      (step.trans step').trans step''⟩
  · rintro ⟨first, and, second, lower, upper, operand, hand, operand', rfl, step⟩
    obtain ⟨d, one, rest⟩ : ∃ d, r.Advances c [first] 1 d ∧ r.Advances d [and, second] 1 c' :=
      Advances.split step
    rcases rest.split_cons with ⟨e, two, three⟩
    refine ⟨_, value_eq_ok_iff.2 ⟨first, operand, one⟩, ?_⟩
    refine bind_eq_ok_iff.2 ⟨_, expect_eq_ok_iff.2 ⟨hand, two⟩, ?_⟩
    exact bind_eq_ok_iff.2 ⟨_, value_eq_ok_iff.2 ⟨second, operand', three⟩, rfl⟩

theorem derivesTest_of_readTest {test : Test} (h : readTest r column c = .ok (test, c')) :
    ∃ taken, DerivesTest r.now column taken test ∧
      r.Advances c taken test.literals.length c' := by
  rw [readTest] at h
  rcases bind_eq_ok_iff.1 h with ⟨⟨operator, d⟩, hnext, h⟩
  have first := next_eq_ok_iff.1 hnext
  dsimp only at h
  split at h
  · next hkind =>
      rcases (readNullTest_eq_ok_iff column hkind).1 h with ⟨taken, derives, rest⟩
      have step : r.Advances c (operator :: taken) 0 c' := first.trans rest
      cases derives with
      | isNull hkind' hnull => exact ⟨_, .isNull hkind' hnull, step⟩
      | isNotNull hkind' hnot hnull => exact ⟨_, .isNotNull hkind' hnot hnull, step⟩
      | relation hkind' _ | text hkind' _ _ | between hkind' _ _ _ | oneOf hkind' _ _ _ =>
          rw [hkind] at hkind'
          cases hkind'
  · next hkind =>
      obtain ⟨one, and, two, lower, upper, operand, hand, operand', rfl, rest⟩ :=
        readBounds_eq_ok_iff.1 h
      exact ⟨_, .between hkind operand hand operand', first.trans rest⟩
  · next hkind =>
      rcases bind_eq_ok_iff.1 h with ⟨⟨vs, e⟩, hlist, h⟩
      obtain ⟨opening, taken, closing, hopening, derives, hclosing, rest⟩ :=
        readList_eq_ok_iff.1 hlist
      cases h
      exact ⟨_, .oneOf hkind hopening derives hclosing,
        by simpa [Test.literals] using first.trans rest⟩
  · next textTest hkind =>
      split at h
      · next supported =>
          rcases bind_eq_ok_iff.1 h with ⟨⟨v, e⟩, hvalue, h⟩
          rcases value_eq_ok_iff.1 hvalue with ⟨token, operand, rest⟩
          cases h
          exact ⟨_, .text hkind supported operand, first.trans rest⟩
      · cases h
  · next relation hkind =>
      rcases bind_eq_ok_iff.1 h with ⟨⟨v, e⟩, hvalue, h⟩
      rcases value_eq_ok_iff.1 hvalue with ⟨token, operand, rest⟩
      cases h
      exact ⟨_, .relation hkind operand, first.trans rest⟩
  · cases h

theorem readTest_of_derivesTest {taken : List Token} {test : Test}
    (h : DerivesTest r.now column taken test)
    (step : r.Advances c taken test.literals.length c') :
    readTest r column c = .ok (test, c') := by
  rw [readTest, bind_eq_ok_iff]
  obtain ⟨operator, rest, rfl⟩ : ∃ operator rest, taken = operator :: rest := by
    cases h <;> exact ⟨_, _, rfl⟩
  rcases step.split_cons with ⟨d, first, step⟩
  refine ⟨(operator, d), next_eq_ok_iff.2 first, ?_⟩
  cases h with
  | relation hkind operand =>
      simp only [hkind]
      exact bind_eq_ok_iff.2 ⟨_, value_eq_ok_iff.2 ⟨_, operand, step⟩, rfl⟩
  | text hkind supported operand =>
      simp only [hkind, supported, if_true]
      exact bind_eq_ok_iff.2 ⟨_, value_eq_ok_iff.2 ⟨_, operand, step⟩, rfl⟩
  | isNull hkind hnull =>
      simp only [hkind]
      exact (readNullTest_eq_ok_iff column hkind).2 ⟨_, .isNull hkind hnull, step⟩
  | isNotNull hkind hnot hnull =>
      simp only [hkind]
      exact (readNullTest_eq_ok_iff column hkind).2 ⟨_, .isNotNull hkind hnot hnull, step⟩
  | between hkind operand hand operand' =>
      simp only [hkind]
      exact readBounds_eq_ok_iff.2 ⟨_, _, _, _, _, operand, hand, operand', rfl, step⟩
  | oneOf hkind hopening derives hclosing =>
      simp only [hkind]
      refine bind_eq_ok_iff.2 ⟨_, readList_eq_ok_iff.2 ?_, rfl⟩
      exact ⟨_, _, _, hopening, derives, hclosing, step⟩

theorem readTest_eq_ok_iff {test : Test} :
    readTest r column c = .ok (test, c') ↔
      ∃ taken, DerivesTest r.now column taken test ∧
        r.Advances c taken test.literals.length c' :=
  ⟨derivesTest_of_readTest, fun ⟨_, derives, step⟩ => readTest_of_derivesTest derives step⟩

theorem columnOf_eq_ok_iff {catalog : Catalog} {name : Token} :
    catalog.columnOf name = .ok column ↔ catalog.resolve name.text = some column := by
  rw [Catalog.columnOf]
  cases catalog.resolve name.text with
  | none => simp
  | some found => simp

/-- No key segment begins with an operator, so the reader of keys stops ahead of a test. -/
theorem kind_ne_openBracket_of_derivesTest {now : Timestamp} {taken rest : List Token}
    {test : Test} (h : DerivesTest now column taken test) {token : Token}
    (htoken : (taken ++ rest).head? = some token) : token.kind ≠ .openBracket := by
  intro hbracket
  cases h with
  | relation hkind _ | text hkind _ _ | isNull hkind _ | isNotNull hkind _ _
  | between hkind _ _ _ | oneOf hkind _ _ _ =>
      cases htoken
      rw [hbracket] at hkind
      cases hkind

theorem readLeaf_eq_ok_iff {name : Token} {clause : Clause} :
    readLeaf r name c = .ok (clause, c') ↔
      ∃ column keys test keyTokens testTokens, clause = .leaf false none ⟨column, keys⟩ test ∧
        r.catalog.resolve name.text = some column ∧ DerivesKeys column keyTokens keys ∧
        DerivesTest r.now column testTokens test ∧
        r.Advances c (keyTokens ++ testTokens) test.literals.length c' := by
  rw [readLeaf, bind_eq_ok_iff]
  constructor
  · rintro ⟨column, hcolumn, h⟩
    rcases bind_eq_ok_iff.1 h with ⟨⟨keys, tokens⟩, hkeys, h⟩
    rcases bind_eq_ok_iff.1 h with ⟨⟨test, d⟩, htest, h⟩
    rcases derivesKeys_of_readKeys hkeys with ⟨keyTokens, derivesKeys, htokens⟩
    rcases readTest_eq_ok_iff.1 htest with ⟨testTokens, derivesTest, step⟩
    cases h
    have hrest : tokens = testTokens ++ c'.tokens := step.tokens
    refine ⟨column, keys, test, keyTokens, testTokens, rfl, columnOf_eq_ok_iff.1 hcolumn,
      derivesKeys, derivesTest, ?_, step.parameters, step.allowed⟩
    rw [htokens, hrest, List.append_assoc]
  · rintro ⟨column, keys, test, keyTokens, testTokens, rfl, hcolumn, derivesKeys, derivesTest,
      step⟩
    obtain ⟨d, first, second⟩ : ∃ d, r.Advances c keyTokens 0 d ∧
        r.Advances d testTokens test.literals.length c' :=
      Advances.split (by simpa using step)
    have hkeys : readKeys r column c.tokens = .ok (keys, d.tokens) := by
      rw [first.tokens]
      refine readKeys_of_derivesKeys derivesKeys fun token htoken => ?_
      rw [second.tokens] at htoken
      exact kind_ne_openBracket_of_derivesTest derivesTest htoken
    have hd : (⟨d.tokens, c.parameters⟩ : Cursor) = d := by
      rw [← Nat.add_zero c.parameters, ← first.parameters]
    refine ⟨column, columnOf_eq_ok_iff.2 hcolumn, bind_eq_ok_iff.2 ⟨_, hkeys, ?_⟩⟩
    refine bind_eq_ok_iff.2 ⟨(test, c'), ?_, rfl⟩
    rw [hd]
    exact readTest_of_derivesTest derivesTest second

end Filter

end RecordQuery
