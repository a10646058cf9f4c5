import RecordQuery.Proofs.Clause.Relations

/-!
# Ranges are conjunctions of relations

Both bounds belong to a range. So whatever a path finds passes `between` exactly if it passes
`greaterOrEqual` with the lower bound and `lessOrEqual` with the upper one (`Test.holds_between`).
What lies between two values has these in their order, since the natural order is transitive across
integers and decimals: a range with its bounds the wrong way round is empty, and one between bounds
that coincide holds the values that are equal to them (`Clause.between_holds_iff`).
-/

namespace RecordQuery

open Std (TransCmp)

namespace Relation

variable {column : Column} {v literal lower upper : Value}

theorem isLE_of_lessOrEqual (h : lessOrEqual.holds column v literal = true) :
    (v.sortCompare literal).isLE = true := by
  rw [holds, Bool.or_eq_true, beq_iff_eq, beq_iff_eq] at h
  rcases h with h | h <;> rw [Value.sortCompare_of_compare? h] <;> rfl

theorem isLE_of_greaterOrEqual (h : greaterOrEqual.holds column v literal = true) :
    (literal.sortCompare v).isLE = true := by
  rw [holds, Bool.or_eq_true, beq_iff_eq, beq_iff_eq] at h
  rcases h with h | h <;>
    rw [Value.sortCompare_of_compare? (Value.compare?_swap.trans (congrArg _ h))] <;> rfl

theorem isLE_of_bounds (hlower : greaterOrEqual.holds column v lower = true)
    (hupper : lessOrEqual.holds column v upper = true) :
    (lower.sortCompare upper).isLE = true :=
  TransCmp.isLE_trans (isLE_of_greaterOrEqual hlower) (isLE_of_lessOrEqual hupper)

theorem holds_bounds_of_eq (hcase : column.caseInsensitive = false)
    (h : lower.compare? upper = some .eq) :
    (greaterOrEqual.holds column v lower && lessOrEqual.holds column v upper) =
      equal.holds column v lower := by
  rw [holds_eq_admits hcase, holds_eq_admits hcase, holds_eq_admits hcase,
    ← Value.compare?_congr_right h]
  rcases v.compare? lower with _ | _ | _ | _ <;> rfl

end Relation

namespace Test

variable {column : Column} {found : Found} {lower upper : Value}

theorem holdsOf_between (column : Column) (v lower upper : Value) :
    (between lower upper).holdsOf column v =
      (Relation.greaterOrEqual.holds column v lower &&
        Relation.lessOrEqual.holds column v upper) :=
  rfl

/-- Whatever has been found passes a range exactly if it passes the relations to both bounds. -/
theorem holds_between (column : Column) (found : Found) (lower upper : Value) :
    (between lower upper).holds column found =
      ((criterion (.relation .greaterOrEqual) (some lower)).holds column found &&
        (criterion (.relation .lessOrEqual) (some upper)).holds column found) := by
  rw [holds_eq_any rfl rfl, holds_eq_any rfl rfl, holds_eq_any rfl rfl]
  cases found.shaped? column.type with
  | none => rfl
  | some v => exact holdsOf_between column v lower upper

theorem holds_between_of_gt (h : lower.compare? upper = some .gt) :
    (between lower upper).holds column found = false := by
  rw [holds_eq_any rfl rfl, Option.any_eq_false]
  intro v _
  by_contra hne
  have hholds := Bool.of_not_eq_false hne
  rw [holdsOf_between, Bool.and_eq_true] at hholds
  have hle := Relation.isLE_of_bounds hholds.1 hholds.2
  rw [Value.sortCompare_of_compare? h] at hle
  cases hle

theorem holds_between_of_eq (hcase : column.caseInsensitive = false)
    (h : lower.compare? upper = some .eq) :
    (between lower upper).holds column found =
      (criterion (.relation .equal) (some lower)).holds column found := by
  rw [holds_eq_any rfl rfl, holds_eq_any rfl rfl]
  cases found.shaped? column.type with
  | none => rfl
  | some v =>
      calc (between lower upper).holdsOf column v
          = (Relation.greaterOrEqual.holds column v lower &&
              Relation.lessOrEqual.holds column v upper) := holdsOf_between column v lower upper
        _ = Relation.equal.holds column v lower := Relation.holds_bounds_of_eq hcase h

end Test

namespace Clause

/-- A range is the conjunction of the relations to its bounds, and a negated one its negation,
whatever the field holds. No record passes a range with the lower bound above the upper one. If the
bounds coincide and case is not ignored, the records that pass are those with a field equal to the
bounds. -/
theorem between_holds_iff {ρ : Type} [Record ρ] (record : ρ) (path : Path) (lower upper : Value)
    (conjunction : Option Conjunction) :
    ((leaf false conjunction path (.between lower upper)).holds record = true ↔
      (Relation.greaterOrEqual.clause path lower).holds record = true ∧
        (Relation.lessOrEqual.clause path upper).holds record = true) ∧
    ((leaf true conjunction path (.between lower upper)).holds record = true ↔
      ¬((Relation.greaterOrEqual.clause path lower).holds record = true ∧
        (Relation.lessOrEqual.clause path upper).holds record = true)) ∧
    (lower.compare? upper = some .gt →
      (leaf false conjunction path (.between lower upper)).holds record = false) ∧
    (lower.compare? upper = some .eq → path.column.caseInsensitive = false →
      (leaf false conjunction path (.between lower upper)).holds record =
        (Relation.equal.clause path lower).holds record) := by
  simp only [holds_leaf, Relation.clause_holds, Path.passes, Bool.bne_false]
  refine ⟨?_, ?_, fun h => ?_, fun h hcase => ?_⟩
  · rw [Test.holds_between, Bool.and_eq_true]
  · rw [Test.holds_between, ← Bool.and_eq_true, Bool.bne_true, Bool.not_eq_true',
      Bool.not_eq_true]
  · exact Test.holds_between_of_gt h
  · exact Test.holds_between_of_eq hcase h

/-- A range from five down to four and a half, and one from three to three. -/
theorem between_holds_iff_reversed :
    (leaf false none ⟨⟨"n", .decimal, [], false, false⟩, []⟩
        (.between (.integer 5) (.decimal ⟨false, 45, 1, by decide, by decide⟩))).holds
      (FieldMap.mk [("n", .integer 5)]) = false ∧
    (leaf false none ⟨⟨"n", .decimal, [], false, false⟩, []⟩
        (.between (.integer 3) (.decimal ⟨false, 300, 2, by decide, by decide⟩))).holds
      (FieldMap.mk [("n", .decimal ⟨false, 30, 1, by decide, by decide⟩)]) = true := by
  have hequal := (between_holds_iff
    (FieldMap.mk [("n", .decimal ⟨false, 30, 1, by decide, by decide⟩)])
    ⟨⟨"n", .decimal, [], false, false⟩, []⟩ (.integer 3)
    (.decimal ⟨false, 300, 2, by decide, by decide⟩) none).2.2.2 (by decide) rfl
  constructor
  · exact (between_holds_iff _ _ _ _ _).2.2.1 (by decide)
  · rw [hequal]
    decide

end Clause

end RecordQuery
