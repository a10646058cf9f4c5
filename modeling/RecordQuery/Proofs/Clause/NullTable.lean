import RecordQuery.Proofs.Clause.Relations
import RecordQuery.Proofs.Record.Descent

/-!
# The null table

What the tests of a field answer depends first on what there is at its path. An absent field and a
null one pass `is null` and `ne` and nothing else, and a path that goes astray passes nothing. A
value passes `is not null`, and this alone if it has not the shape of the column's type; in that
shape it passes one of `eq` and `ne` with every literal. `Path.ObeysNullTable` is this table, a row
for each state of the field, and every path and record obey it (`Path.obeysNullTable`).
-/

namespace RecordQuery

def Test.IsNotNull (t : Test) : Prop :=
  ∃ value, t = .criterion .isNotNull value

namespace Path

variable {ρ : Type} [Record ρ]

/-- The tests of the field at a path that a record passes are exactly the given ones. -/
def PassesExactly (p : Path) (record : ρ) (tests : Test → Prop) : Prop :=
  ∀ conjunction test, (Clause.leaf false conjunction p test).holds record = true ↔ tests test

/-- The answers of a record to the tests of the field at a path. -/
structure ObeysNullTable (p : Path) (record : ρ) : Prop where
  /-- Without keys, exactly one of the null tests is passed. -/
  one_null_test : p.keys = [] → ∀ conjunction value,
    (Clause.leaf false conjunction p (.criterion .isNull value)).holds record =
      !(Clause.leaf false conjunction p (.criterion .isNotNull value)).holds record
  /-- A field that is missing passes `is null` and `ne`. -/
  absent : Record.field record p.column.name = none →
    p.PassesExactly record fun t => t.passedByNull = true
  /-- So does a field whose last key is missing, and one that is null. -/
  null : ∀ root, Record.field record p.column.name = some root →
    root.LacksLast p.keys ∨ root.Leads p.keys .null →
    p.PassesExactly record fun t => t.passedByNull = true
  /-- Where the keys go astray, nothing is passed. -/
  astray : ∀ root, Record.field record p.column.name = some root → root.GoesAstray p.keys →
    p.PassesExactly record fun _ => False
  /-- Where they neither go astray nor end in null, `is not null` is passed and `is null` is not. -/
  present : ∀ root, Record.field record p.column.name = some root → ¬root.GoesAstray p.keys →
    ¬(root.LacksLast p.keys ∨ root.Leads p.keys .null) → ∀ conjunction value,
    (Clause.leaf false conjunction p (.criterion .isNotNull value)).holds record = true ∧
      (Clause.leaf false conjunction p (.criterion .isNull value)).holds record = false
  /-- A value of another shape than its column passes `is not null` alone. -/
  other_shape : ∀ root v, Record.field record p.column.name = some root → root.Leads p.keys v →
    v ≠ .null → p.column.type.coerce v = none → p.PassesExactly record Test.IsNotNull
  /-- A value in the shape of its column passes one of `eq` and `ne` with a literal. -/
  shaped : ∀ root v w, Record.field record p.column.name = some root → root.Leads p.keys v →
    v ≠ .null → p.column.type.coerce v = some w → ∀ literal,
    (Relation.equal.clause p literal).holds record =
      !(Relation.notEqual.clause p literal).holds record
  /-- Negation inverts every answer. -/
  negated : ∀ conjunction test, (Clause.leaf true conjunction p test).holds record =
    !(Clause.leaf false conjunction p test).holds record

variable {p : Path} {record : ρ} {root v : Value}

section Found

theorem find_of_leads (hroot : Record.field record p.column.name = some root)
    (h : root.Leads p.keys v) (hv : v ≠ .null) : p.find record = .present v := by
  rw [find, hroot]
  change root.descend p.keys = .present v
  rw [Value.descend_of_leads h, Value.descend_nil hv]

theorem find_of_endsInNull (hroot : Record.field record p.column.name = some root)
    (h : root.LacksLast p.keys ∨ root.Leads p.keys .null) : p.find record = .null := by
  rw [find, hroot]
  change root.descend p.keys = .null
  rcases h with h | h
  · exact Value.descend_of_lacksLast h
  · exact Value.descend_of_leads h

theorem find_of_goesAstray (hroot : Record.field record p.column.name = some root)
    (h : root.GoesAstray p.keys) : p.find record = .unreachable := by
  rw [find, hroot]
  exact Value.descend_of_goesAstray h

theorem exists_find_eq_present (hroot : Record.field record p.column.name = some root)
    (hastray : ¬root.GoesAstray p.keys)
    (hnull : ¬(root.LacksLast p.keys ∨ root.Leads p.keys .null)) :
    ∃ v, p.find record = .present v := by
  rcases root.exists_descent p.keys with h | h | ⟨v, h⟩
  · exact absurd h hastray
  · exact absurd (.inl h) hnull
  · refine ⟨v, find_of_leads hroot h ?_⟩
    rintro rfl
    exact hnull (.inr h)

end Found

section Answers

theorem leaf_holds (conjunction : Option Conjunction) (test : Test) :
    (Clause.leaf false conjunction p test).holds record = test.holds p.column (p.find record) := by
  rw [Clause.holds_leaf, Bool.bne_false, passes]

theorem passesExactly_of_find_eq_null (h : p.find record = .null) :
    p.PassesExactly record fun t => t.passedByNull = true := by
  intro conjunction test
  rw [leaf_holds, h, (test.holds_not_present p.column).1]

theorem passesExactly_of_find_eq_unreachable (h : p.find record = .unreachable) :
    p.PassesExactly record fun _ => False := by
  intro conjunction test
  rw [leaf_holds, h, (test.holds_not_present p.column).2, Bool.false_eq_true]

theorem passesExactly_of_coerce_eq_none (h : p.find record = .present v)
    (hcoerce : p.column.type.coerce v = none) : p.PassesExactly record Test.IsNotNull := by
  intro conjunction test
  rw [leaf_holds, h, Test.IsNotNull]
  by_cases hasks : test.asksForNull = true
  · fun_cases Test.asksForNull test with
    | case1 value => simp [Test.holds]
    | case2 value => simp [Test.holds]
    | case3 => simp_all [Test.asksForNull]
  · rw [Test.holds_present (Bool.not_eq_true _ ▸ hasks), hcoerce]
    refine iff_of_false Bool.false_ne_true ?_
    rintro ⟨value, rfl⟩
    exact hasks rfl

theorem null_tests_of_present (h : p.find record = .present v)
    (conjunction : Option Conjunction) (value : Option Value) :
    (Clause.leaf false conjunction p (.criterion .isNotNull value)).holds record = true ∧
      (Clause.leaf false conjunction p (.criterion .isNull value)).holds record = false := by
  rw [leaf_holds, leaf_holds, h]
  exact ⟨rfl, rfl⟩

theorem find_of_no_keys (h : p.keys = []) (record : ρ) :
    p.find record = .null ∨ ∃ v, p.find record = .present v := by
  rw [find]
  cases Record.field record p.column.name with
  | none => exact .inl rfl
  | some root =>
      rw [h]
      cases hroot : root.isNull <;> simp [Value.descend, hroot]

end Answers

/-- Every field obeys the null table. -/
theorem obeysNullTable (p : Path) (record : ρ) : p.ObeysNullTable record where
  one_null_test hkeys conjunction value := by
    rw [leaf_holds, leaf_holds]
    rcases find_of_no_keys hkeys record with h | ⟨v, h⟩
    · rw [h]
      rfl
    · rw [h]
      rfl
  absent hroot := passesExactly_of_find_eq_null (find_of_absent hroot)
  null _ hroot h := passesExactly_of_find_eq_null (find_of_endsInNull hroot h)
  astray _ hroot h := passesExactly_of_find_eq_unreachable (find_of_goesAstray hroot h)
  present root hroot hastray hnull conjunction value := by
    obtain ⟨v, hv⟩ := exists_find_eq_present hroot hastray hnull
    exact null_tests_of_present hv conjunction value
  other_shape _ v hroot h hv hcoerce :=
    passesExactly_of_coerce_eq_none (find_of_leads hroot h hv) hcoerce
  shaped _ v w hroot h hv hcoerce literal := by
    have hfound := find_of_leads hroot h hv
    rw [Relation.clause_holds_of_present hfound hcoerce,
      Relation.clause_holds_of_present hfound hcoerce, Relation.holds, Relation.holds,
      Bool.not_not]
  negated conjunction test := by
    rw [Clause.holds_leaf, Clause.holds_leaf, Bool.bne_true, Bool.bne_false]

/-- Keys into an object with an array and a text, on a column of integers: the item behind the end
and the null item, a key below the text, the text itself, and an integer. -/
theorem obeysNullTable_rows :
    let column : Column := ⟨"tags", .integer, [], true, false⟩
    let record := FieldMap.mk
      [("tags", .object [("a", .array [.null, .integer 1]), ("b", .string "x")])]
    PassesExactly ⟨column, ["a", "2"]⟩ record (fun t => t.passedByNull = true) ∧
      PassesExactly ⟨column, ["a", "0"]⟩ record (fun t => t.passedByNull = true) ∧
      PassesExactly ⟨column, ["b", "c"]⟩ record (fun _ => False) ∧
      PassesExactly ⟨column, ["b"]⟩ record Test.IsNotNull ∧
      ∀ literal, (Relation.equal.clause ⟨column, ["a", "1"]⟩ literal).holds record =
        !(Relation.notEqual.clause ⟨column, ["a", "1"]⟩ literal).holds record := by
  intro column record
  have hitem (index : String) {v : Value}
      (h : (Value.array [.null, .integer 1]).child? index = some v) :
      (Value.object [("a", .array [.null, .integer 1]), ("b", .string "x")]).Leads
        ["a", index] v :=
    .cons (Value.child?_eq_some_iff.1 rfl) (.cons (Value.child?_eq_some_iff.1 h) (.nil v))
  have htext : (Value.object [("a", .array [.null, .integer 1]), ("b", .string "x")]).Part "b"
      (.string "x") := .field rfl
  refine ⟨?_, ?_, ?_, ?_, ?_⟩
  · refine (obeysNullTable ⟨column, ["a", "2"]⟩ record).null _ rfl (.inl (.cons (.field rfl) ?_))
    exact .missing (Value.hasChildren_eq_false_iff.not.1 (by decide))
      (Value.child?_eq_none_iff.1 (by decide))
  · exact (obeysNullTable ⟨column, ["a", "0"]⟩ record).null _ rfl (.inr (hitem "0" rfl))
  · refine (obeysNullTable ⟨column, ["b", "c"]⟩ record).astray _ rfl (.cons htext (.scalar ?_))
    exact Value.hasChildren_eq_false_iff.1 rfl
  · exact (obeysNullTable ⟨column, ["b"]⟩ record).other_shape _ _ rfl (.cons htext (.nil _))
      (by simp) rfl
  · exact (obeysNullTable ⟨column, ["a", "1"]⟩ record).shaped _ _ _ rfl (hitem "1" rfl)
      (by simp) rfl

end Path

end RecordQuery
