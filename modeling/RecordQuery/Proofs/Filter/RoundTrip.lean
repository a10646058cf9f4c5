import RecordQuery.Proofs.Clause.RoundTrip

/-!
# Reading what is written of filters

The canonical text of a filter stands for that filter (`Filter.ofText_write`), if the filter has the
shape that read filters have and every column is found by its own name. By induction over the
clauses: what is written of a sequence is closed, and the grammar derives the same sequence from it,
with no deeper nesting than the place of the sequence leaves room for. Sequences and groups are put
together from texts as filters are (`DerivesText.join`, `DerivesText.enclose`), which leaves the
tests to be looked at.
-/

namespace RecordQuery

/-- A test of a field as it may be written: one that the catalog admits, with no key that closes its
segment itself. -/
structure Writable (catalog : Catalog) (path : Path) (test : Test) : Prop where
  admits : Admits catalog (fun type v => v.IsLiteralOf type ∧ v.HasShortYear) path test
  keys : ∀ key ∈ path.keys, ¬Lexeme.keyEnd <:+: key.toList

theorem Value.length_eq_of_sameItems {vs ws : List Value} (h : sameItems vs ws = true) :
    vs.length = ws.length := by
  induction vs generalizing ws with
  | nil =>
      cases ws with
      | nil => rfl
      | cons w ws => simp [sameItems] at h
  | cons v vs ih =>
      cases ws with
      | nil => simp [sameItems] at h
      | cons w ws =>
          rw [sameItems, Bool.and_eq_true] at h
          rw [List.length_cons, List.length_cons, ih h.2]

theorem Test.length_literals_of_same {t u : Test} (h : t.same u = true) :
    t.literals.length = u.literals.length := by
  cases t with
  | criterion operation value =>
      cases u with
      | criterion operation' value' => cases value <;> cases value' <;> simp_all [same, literals]
      | between lower upper => simp [same] at h
      | oneOf values => simp [same] at h
  | between lower upper => cases u <;> simp_all [same, literals]
  | oneOf values =>
      cases u with
      | oneOf values' => exact Value.length_eq_of_sameItems h
      | criterion operation value => simp [same] at h
      | between lower upper => simp [same] at h

namespace Clause

open Grammar

variable {catalog : Catalog} {now : Timestamp}

theorem same_withConjunction {c c' : Clause} (conjunction : Option Conjunction)
    (h : (c.withConjunction none).same c' = true) (hc : c'.conjunction = none) :
    (c.withConjunction conjunction).same (c'.withConjunction conjunction) = true := by
  cases c <;> cases c' <;> simp_all [withConjunction, same]

theorem derivesText_leaf {negated : Bool} (conjunction : Option Conjunction) {path : Path}
    {test : Test} (names : ∀ column ∈ catalog.columns, catalog.FindsName column)
    (h : Writable catalog path test) :
    ∃ c', DerivesText catalog now 0 (leaf negated conjunction path test).write [c'] ∧
      (leaf negated none path test).same c' = true := by
  rcases path with ⟨column, keys⟩
  obtain ⟨nameClosed, name, nameTokens, hkind, hresolve⟩ :=
    (names column h.admits.column_mem).scan
  rcases Path.derivesKeys_writeKeys h.admits.nested_of_keys h.keys with ⟨keysClosed, derivesKeys⟩
  obtain ⟨testClosed, test', derivesTest, hsame⟩ : Test.DerivesTestText now column
      test.write.toList test := Test.derivesTest_write h.admits.wellFormed h.admits.literals
  have htext : (leaf negated conjunction ⟨column, keys⟩ test).write.toList =
      (if negated then "not " else "").toList ++
        ((column.name.toList ++ (Path.writeKeys keys).toList) ++ ' ' :: test.write.toList) := by
    simp [write, Path.write]
  have pathClosed : (Scan.of 0 (column.name.toList ++ (Path.writeKeys keys).toList)).opened =
      none := by
    rw [Scan.opened_of_append_iff (Path.breaks_writeKeys keys) nameClosed]
    exact keysClosed
  obtain ⟨negation, distance, derivesNegation, htokens, hopened⟩ :=
    derivesNegation_of_scan negated
      ((column.name.toList ++ (Path.writeKeys keys).toList) ++ ' ' :: test.write.toList)
  refine ⟨.leaf negated none ⟨column, keys⟩ test', ⟨?_, ?_⟩, by simp [same, hsame]⟩
  · rw [htext, hopened, Scan.opened_of_append_space_iff _ pathClosed]
    exact testClosed
  · rw [htext, htokens, Scan.tokens_of_append_space _ pathClosed,
      Scan.tokens_of_append (Path.breaks_writeKeys keys) nameClosed, nameTokens]
    simp only [List.map_append, List.map_cons, List.singleton_append]
    exact .last (.leaf derivesNegation hkind hresolve ((derivesKeys.shift _).shift _)
      (((derivesTest.shift _).shift _).shift _))

theorem length_eq_of_sameSequence {cs cs' : List Clause} (h : sameSequence cs cs' = true) :
    cs.length = cs'.length := by
  induction cs generalizing cs' with
  | nil =>
      cases cs' with
      | nil => rfl
      | cons c' cs' => simp [sameSequence] at h
  | cons c cs ih =>
      cases cs' with
      | nil => simp [sameSequence] at h
      | cons c' cs' =>
          rw [sameSequence, Bool.and_eq_true] at h
          rw [List.length_cons, List.length_cons, ih h.2]

mutual

theorem parameterCount_of_same : ∀ {c c' : Clause}, c.same c' = true →
    c.parameterCount = c'.parameterCount
  | .leaf _ _ _ test, .leaf _ _ _ test', h => by
      simp only [same, Bool.and_eq_true] at h
      exact Test.length_literals_of_same h.2
  | .group _ _ children, .group _ _ children', h => by
      simp only [same, Bool.and_eq_true] at h
      exact sequenceParameterCount_of_same h.2
  | .leaf _ _ _ _, .group _ _ _, h => by simp [same] at h
  | .group _ _ _, .leaf _ _ _ _, h => by simp [same] at h

theorem sequenceParameterCount_of_same : ∀ {cs cs' : List Clause}, sameSequence cs cs' = true →
    sequenceParameterCount cs = sequenceParameterCount cs'
  | [], [], _ => rfl
  | c :: cs, c' :: cs', h => by
      rw [sameSequence, Bool.and_eq_true] at h
      rw [sequenceParameterCount, sequenceParameterCount, parameterCount_of_same h.1,
        sequenceParameterCount_of_same h.2]
  | [], _ :: _, h => by simp [sameSequence] at h
  | _ :: _, [], h => by simp [sameSequence] at h

end

theorem writeSequence_singleton {c : Clause} (h : c.conjunction = none) :
    writeSequence [c] = c.write := by
  simp [writeSequence, h]

theorem writeSequence_cons {c : Clause} {conjunction : Conjunction} (cs : List Clause)
    (h : c.conjunction = some conjunction) :
    writeSequence (c :: cs) = c.write ++ " " ++ conjunction.keyword ++ " " ++ writeSequence cs := by
  simp [writeSequence, h, String.append_assoc]

mutual

/-- The grammar derives a clause from what is written of it, the conjunction behind it apart. -/
theorem exists_derivesText {depth : Nat}
    (names : ∀ column ∈ catalog.columns, catalog.FindsName column)
    (hdepth : depth ≤ maxGroupDepth) :
    ∀ c : Clause, c.WellFormed (Writable catalog) depth →
      ∃ d c', depth + d ≤ maxGroupDepth ∧ DerivesText catalog now d c.write [c'] ∧
        (c.withConjunction none).same c' = true
  | .leaf negated conjunction path test, h => by
      rcases derivesText_leaf conjunction names h with ⟨c', derives, hsame⟩
      exact ⟨0, c', hdepth, derives, hsame⟩
  | .group negated conjunction children, h => by
      rcases h with ⟨two, hroom, hchildren⟩
      have hne : children ≠ [] := by
        rintro rfl
        simp at two
      obtain ⟨d, clauses, hd, derives, hsame⟩ :=
        exists_derivesText_sequence names hroom children hchildren hne
      have hlength := length_eq_of_sameSequence hsame
      refine ⟨d + 1, .group negated none clauses, by omega, ?_, ?_⟩
      · have henclosed := derives.enclose negated
        rw [Filter.groupOf_of_two_le (by omega)] at henclosed
        simpa [write, negateIf] using henclosed
      · simp [withConjunction, same, hsame]

theorem exists_derivesText_sequence {depth : Nat}
    (names : ∀ column ∈ catalog.columns, catalog.FindsName column)
    (hdepth : depth ≤ maxGroupDepth) :
    ∀ cs : List Clause, SequenceWellFormed (Writable catalog) depth cs → cs ≠ [] →
      ∃ d cs', depth + d ≤ maxGroupDepth ∧ DerivesText catalog now d (writeSequence cs) cs' ∧
        sameSequence cs cs' = true
  | [], _, hne => absurd rfl hne
  | c :: cs, h, _ => by
      rcases h with ⟨hlast, hc, hcs⟩
      rcases exists_derivesText names hdepth c hc with ⟨d, c', hd, derives, hsame⟩
      have hnone : c'.conjunction = none := derives.derives.conjunction_of_single
      by_cases hend : cs = []
      · subst hend
        rw [withConjunction_eq_self (hlast.2 rfl)] at hsame
        rw [writeSequence_singleton (hlast.2 rfl)]
        exact ⟨d, [c'], hd, derives, by simp [sameSequence, hsame]⟩
      · obtain ⟨conjunction, hconjunction⟩ : ∃ conjunction, c.conjunction = some conjunction :=
          Option.ne_none_iff_exists'.1 fun hnone => hend (hlast.1 hnone)
        obtain ⟨e, cs', he, others, hsames⟩ := exists_derivesText_sequence names hdepth cs hcs hend
        have hjoined := same_withConjunction (some conjunction) hsame hnone
        rw [withConjunction_eq_self hconjunction] at hjoined
        rw [writeSequence_cons cs hconjunction]
        refine ⟨max d e, _, by omega, derives.join conjunction others, ?_⟩
        simp [joinTo, sameSequence, hjoined, hsames]

end

end Clause

namespace Filter

open Grammar

/-- The canonical text of a filter stands for the filter. Every column has to be found by its own
name, and the filter has to be one that the catalog admits. -/
theorem ofText_write {catalog : Catalog} {now : Timestamp} {f : Filter}
    (names : ∀ column ∈ catalog.columns, catalog.FindsName column)
    (wellFormed : Clause.SequenceWellFormed (Writable catalog) 0 f.clauses)
    (allowed : catalog.Allows f.parameterCount) :
    ∃ g, ofText catalog now f.write = .ok g ∧ f.same g = true := by
  rcases f with ⟨clauses⟩
  by_cases hempty : clauses = []
  · subst hempty
    refine ⟨⟨[]⟩, ofText_eq_ok_iff.2 ⟨?_, .inl ⟨?_, rfl⟩, catalog.allows_zero⟩, rfl⟩
    · rw [write, Clause.writeSequence, String.toList_empty, Scan.of_nil]
      rfl
    · rw [write, Clause.writeSequence, String.toList_empty, Scan.of_nil]
      rfl
  · obtain ⟨d, clauses', hd, derives, hsame⟩ :=
      Clause.exists_derivesText_sequence names (Nat.zero_le _) clauses wellFormed hempty
    rw [parameterCount, Clause.sequenceParameterCount_of_same hsame] at allowed
    exact ⟨⟨clauses'⟩, ofText_of_derivesText derives (by omega) allowed, hsame⟩

def hiredAtLeapSecond : Filter :=
  ⟨[.group true none [
      .leaf false (some .or) ⟨⟨"meta", .json, [], true, false⟩, ["a"]⟩
        (.criterion (.relation .equal) (some (.decimal ⟨false, 150, 2, by decide, by decide⟩))),
      .leaf true none ⟨⟨"hired", .date, [], false, false⟩, []⟩
        (.criterion (.relation .greaterOrEqual) (some (.date ⟨915148799, 1500000000⟩)))]]⟩

theorem ofText_write_hiredAtLeapSecond :
    hiredAtLeapSecond.write =
        "not (meta[\"a\"] eq 1.50 or not hired ge '1998-12-31T23:59:60.500+00:00')" ∧
      ∃ g, ofText staff ⟨0, 0⟩ hiredAtLeapSecond.write = .ok g ∧
        hiredAtLeapSecond.same g = true := by
  refine ⟨by decide +kernel, ofText_write ?_ ?_ ?_⟩
  · have words : ∀ column ∈ staff.columns, (TokenStream.ofText column.name .filter).tokens =
        [⟨.identifier, column.name, 0⟩] := by
      decide +kernel
    exact fun column hcolumn => Column.IsWord.findsName ⟨0, words column hcolumn⟩ hcolumn
  · have hkey : Writable staff ⟨⟨"meta", .json, [], true, false⟩, ["a"]⟩
        (.criterion (.relation .equal)
          (some (.decimal ⟨false, 150, 2, by decide, by decide⟩))) := by
      refine ⟨⟨by simp [staff], by simp, by simp [Test.WellFormed], ?_⟩, ?_⟩
      · simp [Test.literals, Value.IsLiteralOf, Value.HasShortYear]
      · simp only [List.mem_singleton]
        rintro key rfl
        decide
    have hdate : Writable staff ⟨⟨"hired", .date, [], false, false⟩, []⟩
        (.criterion (.relation .greaterOrEqual) (some (.date ⟨915148799, 1500000000⟩))) := by
      refine ⟨⟨by simp [staff], by simp, by simp [Test.WellFormed], ?_⟩, by simp⟩
      have hvalid : Timestamp.IsValid ⟨915148799, 1500000000⟩ := .inr (by decide)
      have hyear : 0 ≤ Timestamp.year ⟨915148799, 1500000000⟩ ∧
          Timestamp.year ⟨915148799, 1500000000⟩ ≤ 9999 := by
        decide
      simpa [Test.literals, Value.IsLiteralOf, Value.HasShortYear] using ⟨hvalid, hyear⟩
    have hroom : 0 < maxGroupDepth := by decide
    simp [hiredAtLeapSecond, Clause.SequenceWellFormed, Clause.WellFormed, Clause.conjunction,
      hroom, hkey, hdate]
  · rintro _ ⟨⟩
    decide

def spaced : Catalog :=
  ⟨{ model := "spaced", columns := [{ name := " id", type := .integer, aliases := ["x"] }] },
    ⟨[("x", 0), (" id", 0)]⟩, by decide +kernel⟩

def spacedTest : Filter :=
  ⟨[.leaf false none ⟨⟨" id", .integer, ["x"], false, false⟩, []⟩
    (.criterion (.relation .equal) (some (.integer 1)))]⟩

/-- That a name makes one identifier is not enough: the blank ahead of a word is lost, and with it
the name of the column. -/
theorem not_ofText_write_of_one_identifier :
    ¬∀ (catalog : Catalog) (now : Timestamp) (f : Filter),
      (∀ column ∈ catalog.columns, ∃ text position,
        (TokenStream.ofText column.name .filter).tokens = [⟨.identifier, text, position⟩]) →
      Clause.SequenceWellFormed (Writable catalog) 0 f.clauses →
      catalog.Allows f.parameterCount →
      ∃ g, ofText catalog now f.write = .ok g ∧ f.same g = true := by
  have words : ∀ column ∈ spaced.columns, ∃ text position,
      (TokenStream.ofText column.name .filter).tokens = [⟨.identifier, text, position⟩] := by
    intro column hcolumn
    refine ⟨"id", 1, ?_⟩
    revert column
    decide +kernel
  have wellFormed : Clause.SequenceWellFormed (Writable spaced) 0 spacedTest.clauses := by
    have hleaf : Writable spaced ⟨⟨" id", .integer, ["x"], false, false⟩, []⟩
        (.criterion (.relation .equal) (some (.integer 1))) := by
      refine ⟨⟨by simp [spaced], by simp, by simp [Test.WellFormed], ?_⟩, by simp⟩
      simp [Test.literals, Value.IsLiteralOf, Value.HasShortYear]
    simp [spacedTest, Clause.SequenceWellFormed, Clause.WellFormed, Clause.conjunction, hleaf]
  have allowed : spaced.Allows spacedTest.parameterCount := by
    rintro _ ⟨⟩
  have hread : ofText spaced ⟨0, 0⟩ spacedTest.write =
      .error ⟨" id eq 1", .filter, .unknownColumn "id" 1⟩ := by
    cbv
  intro h
  rcases h spaced ⟨0, 0⟩ spacedTest words wellFormed allowed with ⟨g, hg, -⟩
  rw [hread] at hg
  cases hg

end Filter

end RecordQuery
