import Mathlib
import RecordQuery.Proofs.Grammar.Reader

/-!
# Well-formed filters

What those who use a filter may rely on, whoever wrote its text. Every test addresses a column of
the catalog, by keys only if the column supports them; it has the literals that its operation
takes, each of the type of the column; a group is a real group and not nested too deeply; and the
conjunctions stand between clauses and nowhere else.

`Clause.WellFormed` is this invariant over the tree, with the condition on tests as a parameter. It
speaks of neither the negation nor the conjunction of the clause itself, so it survives what the
reader does to the only clause of a group: that clause is negated once more and joined to other
neighbours. Every filter that is read from a text satisfies it (`wellFormed_of_ofText`).
-/

namespace RecordQuery

namespace Value

/-- The value is of the kind that literals for a column of the type have. -/
def HasType (v : Value) : FieldType → Prop
  | .string => ∃ s, v = .string s
  | .integer => ∃ n, v = .integer n
  | .decimal => ∃ d, v = .decimal d
  | .boolean => ∃ b, v = .boolean b
  | .date => ∃ t, v = .date t
  | .json => (∃ n, v = .integer n) ∨ (∃ d, v = .decimal d) ∨ (∃ b, v = .boolean b) ∨
      ∃ s, v = .string s

end Value

namespace Test

def WellFormed (type : FieldType) : Test → Prop
  | .criterion operation value =>
      (value = none ↔ operation = .isNull ∨ operation = .isNotNull) ∧
        ∀ t, operation = .text t → type = .string ∨ type = .json
  | .between _ _ => True
  | .oneOf values => values ≠ []

end Test

/-- A test of a field is one that the catalog admits, with literals as `literal` demands. -/
structure Admits (catalog : Catalog) (literal : FieldType → Value → Prop) (path : Path)
    (test : Test) : Prop where
  column_mem : path.column ∈ catalog.columns
  nested_of_keys : path.keys ≠ [] → path.column.nested = true
  wellFormed : test.WellFormed path.column.type
  literals : ∀ v ∈ test.literals, literal path.column.type v

namespace Clause

mutual

def WellFormed (leaf : Path → Test → Prop) (depth : Nat) : Clause → Prop
  | .leaf _ _ path test => leaf path test
  | .group _ _ children =>
      2 ≤ children.length ∧ depth < maxGroupDepth ∧ SequenceWellFormed leaf (depth + 1) children

/-- The same of all clauses of a sequence, in which exactly the last has no conjunction. -/
def SequenceWellFormed (leaf : Path → Test → Prop) (depth : Nat) : List Clause → Prop
  | [] => True
  | clause :: clauses =>
      (clause.conjunction = none ↔ clauses = []) ∧ clause.WellFormed leaf depth ∧
        SequenceWellFormed leaf depth clauses

end

variable {leaf : Path → Test → Prop} {depth : Nat}

@[simp] theorem wellFormed_negateIf (again : Bool) (c : Clause) :
    (c.negateIf again).WellFormed leaf depth ↔ c.WellFormed leaf depth := by
  cases c <;> simp [negateIf, WellFormed]

@[simp] theorem wellFormed_withConjunction (conjunction : Option Conjunction) (c : Clause) :
    (c.withConjunction conjunction).WellFormed leaf depth ↔ c.WellFormed leaf depth := by
  cases c <;> simp [withConjunction, WellFormed]

theorem sequenceWellFormed_singleton {c : Clause} :
    SequenceWellFormed leaf depth [c] ↔ c.conjunction = none ∧ c.WellFormed leaf depth := by
  simp [SequenceWellFormed]

end Clause

namespace Filter

/-- A filter of which every part is well-formed. -/
def WellFormed (catalog : Catalog) (f : Filter) : Prop :=
  Clause.SequenceWellFormed (Admits catalog fun type v => v.HasType type) 0 f.clauses

end Filter

namespace Literal

theorem orMismatch_eq_ok_iff {value : Option Value} {reason : Mismatch} {v : Value} :
    orMismatch value reason = .ok v ↔ value = some v := by
  cases value <;> simp [orMismatch]

theorem hasType_of_convert {now : Timestamp} {type : FieldType} {token : Token} {v : Value}
    (h : convert now type token = .ok v) : v.HasType type := by
  unfold convert at h
  cases type with
  | string =>
      cases h
      exact ⟨_, rfl⟩
  | integer =>
      rcases Option.map_eq_some_iff.1 (orMismatch_eq_ok_iff.1 h) with ⟨n, -, rfl⟩
      exact ⟨n, rfl⟩
  | decimal =>
      rcases Option.map_eq_some_iff.1 (orMismatch_eq_ok_iff.1 h) with ⟨d, -, rfl⟩
      exact ⟨d, rfl⟩
  | boolean =>
      rcases Option.map_eq_some_iff.1 (orMismatch_eq_ok_iff.1 h) with ⟨b, -, rfl⟩
      exact ⟨b, rfl⟩
  | date =>
      rcases Option.map_eq_some_iff.1 (orMismatch_eq_ok_iff.1 h) with ⟨t, -, rfl⟩
      exact ⟨t, rfl⟩
  | json =>
      dsimp only at h
      split at h
      · have hnumber := orMismatch_eq_ok_iff.1 h
        unfold numberValue? at hnumber
        split at hnumber
        · cases hnumber
          exact .inl ⟨_, rfl⟩
        · obtain ⟨d, -, rfl⟩ := Option.map_eq_some_iff.1 hnumber
          exact .inr (.inl ⟨d, rfl⟩)
      · cases h
        exact .inr (.inr (.inl ⟨_, rfl⟩))
      · cases h
        exact .inr (.inr (.inr ⟨_, rfl⟩))

end Literal

namespace Grammar

variable {catalog : Catalog} {now : Timestamp} {column : Column}

theorem DerivesKeys.nested {tokens : List Token} {keys : List String}
    (h : DerivesKeys column tokens keys) (hkeys : keys ≠ []) : column.nested = true := by
  cases h with
  | nil => exact absurd rfl hkeys
  | cons nested _ _ _ _ => exact nested

theorem DerivesValues.ne_nil {tokens : List Token} {vs : List Value}
    (h : DerivesValues now column tokens vs) : vs ≠ [] := by
  cases h with
  | last _ => simp
  | cons _ _ _ => simp

theorem DerivesValues.hasType {tokens : List Token} {vs : List Value}
    (h : DerivesValues now column tokens vs) : ∀ v ∈ vs, v.HasType column.type := by
  induction h with
  | last operand =>
      intro v hv
      rw [List.mem_singleton.1 hv]
      exact Literal.hasType_of_convert operand.convert
  | cons operand _ _ ih =>
      intro v hv
      rcases List.mem_cons.1 hv with rfl | hv
      · exact Literal.hasType_of_convert operand.convert
      · exact ih v hv

theorem DerivesTest.wellFormed {tokens : List Token} {test : Test}
    (h : DerivesTest now column tokens test) : test.WellFormed column.type := by
  cases h with
  | relation _ _ => simp [Test.WellFormed]
  | text _ supported _ => simp [Test.WellFormed, FieldType.supportsTextTests_iff.1 supported]
  | isNull _ _ => simp [Test.WellFormed]
  | isNotNull _ _ _ => simp [Test.WellFormed]
  | between _ _ _ _ => trivial
  | oneOf _ _ values _ => exact values.ne_nil

theorem DerivesTest.hasType {tokens : List Token} {test : Test}
    (h : DerivesTest now column tokens test) : ∀ v ∈ test.literals, v.HasType column.type := by
  intro v hv
  cases h with
  | relation _ operand | text _ _ operand =>
      obtain rfl : v = _ := by simpa [Test.literals] using hv
      exact Literal.hasType_of_convert operand.convert
  | isNull _ _ | isNotNull _ _ _ => simp [Test.literals] at hv
  | between _ lower _ upper =>
      simp only [Test.literals, List.mem_cons, List.not_mem_nil, or_false] at hv
      rcases hv with rfl | rfl
      · exact Literal.hasType_of_convert lower.convert
      · exact Literal.hasType_of_convert upper.convert
  | oneOf _ _ values _ => exact values.hasType v hv

mutual

/-- A clause that is derived under `above` groups is well-formed there. -/
theorem DerivesClause.wellFormed {depth above : Nat} {tokens : List Token} {clause : Clause} :
    DerivesClause catalog now depth tokens clause → above + depth ≤ maxGroupDepth →
      clause.WellFormed (Admits catalog fun type v => v.HasType type) above
  | .leaf _ _ resolved keys test, _ =>
      ⟨Catalog.mem_columns_of_resolve resolved, keys.nested, test.wellFormed, test.hasType⟩
  | .single _ _ sequence _, hdepth => by
      have h := sequence.wellFormed (Nat.le_of_succ_le hdepth)
      rw [Clause.wellFormed_negateIf]
      exact (Clause.sequenceWellFormed_singleton.1 h).2
  | .group _ _ sequence two _, hdepth => by
      refine ⟨two, by omega, sequence.wellFormed ?_⟩
      rwa [Nat.succ_add_eq_add_succ]

theorem DerivesSequence.wellFormed {depth above : Nat} {tokens : List Token}
    {clauses : List Clause} :
    DerivesSequence catalog now depth tokens clauses → above + depth ≤ maxGroupDepth →
      Clause.SequenceWellFormed (Admits catalog fun type v => v.HasType type) above clauses
  | .last clause, hdepth =>
      Clause.sequenceWellFormed_singleton.2 ⟨clause.conjunction_eq_none, clause.wellFormed hdepth⟩
  | .join clause _ others, hdepth => by
      refine ⟨by simp [others.ne_nil], ?_, others.wellFormed (by omega)⟩
      rw [Clause.wellFormed_withConjunction]
      exact clause.wellFormed (by omega)

end

end Grammar

namespace Filter

/-- Every filter that is read from a text is well-formed. -/
theorem wellFormed_of_ofText {catalog : Catalog} {now : Timestamp} {text : String} {f : Filter}
    (h : ofText catalog now text = .ok f) : f.WellFormed catalog := by
  rcases ofText_eq_ok_iff.1 h with ⟨-, derives⟩
  rcases derives.clauses with ⟨-, hclauses⟩ | ⟨depth, hdepth, sequence⟩
  · rw [WellFormed, hclauses]
    trivial
  · exact sequence.wellFormed (by simpa using hdepth)

/-- A catalog with a column that has two names, a document, a date, and a limit on the literals. -/
def staff : Catalog :=
  ⟨{ model := "staff"
     maxParameters := some 5
     columns := [
       { name := "id", type := .integer },
       { name := "name", type := .string, aliases := ["FullName"] },
       { name := "meta", type := .json, nested := true },
       { name := "hired", type := .date }] },
    ⟨[("hired", 3), ("meta", 2), ("fullname", 1), ("name", 1), ("id", 0)]⟩, by decide +kernel⟩

theorem wellFormed_of_nested_groups :
    ∃ f, ofText staff ⟨0, 0⟩
        "not (id in (1, 2) or meta[\"a\"] contains 'x') and ((FULLNAME is not null))" = .ok f ∧
      f.clauses.length = 2 ∧ f.parameterCount = 3 ∧ f.WellFormed staff := by
  have h : ofText staff ⟨0, 0⟩
      "not (id in (1, 2) or meta[\"a\"] contains 'x') and ((FULLNAME is not null))" = .ok ⟨[
        .group true (some .and) [
          .leaf false (some .or) ⟨⟨"id", .integer, [], false, false⟩, []⟩
            (.oneOf [.integer 1, .integer 2]),
          .leaf false none ⟨⟨"meta", .json, [], true, false⟩, ["a"]⟩
            (.criterion (.text .contains) (some (.string "x")))],
        .leaf false none ⟨⟨"name", .string, ["FullName"], false, false⟩, []⟩
          (.criterion .isNotNull none)]⟩ := by
    cbv
  exact ⟨_, h, rfl, by decide, wellFormed_of_ofText h⟩

end Filter

end RecordQuery
