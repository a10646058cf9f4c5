import RecordQuery.Proofs.Clause.Tests
import RecordQuery.Proofs.Value.NaturalOrder

/-!
# Relations follow the natural order

A field that is present, in the shape of its column, passes a relation by how its value compares
with the literal (`Relation.holds_eq_admits`), unless case is ignored. So the six relations agree on
one order: of `less`, `equal` and `greater` exactly one holds if the two are of one kind, and the
other three are put together from these. A value and a literal that are not of one kind pass no
relation but `notEqual` (`Relation.follow_order`).
-/

namespace RecordQuery

namespace Relation

/-- The clause that asks whether the field at a path stands in the relation to a literal. -/
def clause (r : Relation) (path : Path) (literal : Value) : Clause :=
  .leaf false none path (.criterion (.relation r) (some literal))

def admits : Relation → Option Ordering → Bool
  | .equal, o => o == some .eq
  | .notEqual, o => !(o == some .eq)
  | .greater, o => o == some .gt
  | .greaterOrEqual, o => o == some .gt || o == some .eq
  | .less, o => o == some .lt
  | .lessOrEqual, o => o == some .lt || o == some .eq

/-- The answers to the six relations if a value comes before another one, has the same place, or
comes after it: one of the three is the case, and the relations are decided by it. -/
structure FollowOrder (passes : Relation → Prop) (before same after : Prop) : Prop where
  less : passes .less ↔ before
  equal : passes .equal ↔ same
  greater : passes .greater ↔ after
  exactly_one :
    passes .less ∧ ¬passes .equal ∧ ¬passes .greater ∨
    ¬passes .less ∧ passes .equal ∧ ¬passes .greater ∨
    ¬passes .less ∧ ¬passes .equal ∧ passes .greater
  greaterOrEqual : passes .greaterOrEqual ↔ passes .greater ∨ passes .equal
  lessOrEqual : passes .lessOrEqual ↔ passes .less ∨ passes .equal
  notEqual : passes .notEqual ↔ ¬passes .equal

section Values

variable {column : Column} {v literal : Value}

theorem holds_eq_admits (hcase : column.caseInsensitive = false) (r : Relation) :
    r.holds column v literal = r.admits (v.compare? literal) := by
  have hequates : column.equates v literal = (v.compare? literal == some .eq) := by
    unfold Column.equates
    rw [hcase]
  cases r <;> simp only [holds, admits, hequates]

theorem followOrder_admits (h : v.Comparable literal) :
    FollowOrder (fun r => r.admits (v.compare? literal) = true) (v.Precedes literal)
      (v.Coincides literal) (literal.Precedes v) := by
  obtain ⟨o, ho⟩ := Option.ne_none_iff_exists'.1 (Value.compare?_ne_none_iff.2 h)
  constructor
  case less => rw [← Value.compare?_eq_lt_iff, admits, beq_iff_eq]
  case equal => rw [← Value.compare?_eq_eq_iff, admits, beq_iff_eq]
  case greater => rw [← Value.compare?_eq_gt_iff, admits, beq_iff_eq]
  all_goals
    rw [ho]
    cases o <;> decide

theorem admits_none_iff (r : Relation) : r.admits none = true ↔ r = .notEqual := by
  cases r <;> decide

end Values

section Records

variable {ρ : Type} [Record ρ] {record : ρ} {path : Path} {found v : Value}

theorem clause_holds (r : Relation) (path : Path) (literal : Value) (record : ρ) :
    (r.clause path literal).holds record =
      path.passes (.criterion (.relation r) (some literal)) record := by
  rw [clause, Clause.holds_leaf, Bool.bne_false]

/-- A value in the shape of the column passes a relation exactly if it stands in it. -/
theorem clause_holds_of_present (hfound : path.find record = .present found)
    (hcoerce : path.column.type.coerce found = some v) (r : Relation) (literal : Value) :
    (r.clause path literal).holds record = r.holds path.column v literal := by
  rw [clause_holds, Path.passes, hfound, Test.holds_present rfl, hcoerce]
  rfl

/-- Of a field that holds a value in the shape of its column, case not being ignored, the relations
to a literal follow the one order of their kind. They answer alike on another record, and for
another literal, if the values there coincide, as equal numbers of different variants and scales do.
If the value and the literal are not of one kind, `notEqual` alone holds. -/
theorem follow_order (hcase : path.column.caseInsensitive = false)
    (hfound : path.find record = .present found)
    (hcoerce : path.column.type.coerce found = some v) (literal : Value) :
    (v.Comparable literal →
      FollowOrder (fun r => (r.clause path literal).holds record = true) (v.Precedes literal)
        (v.Coincides literal) (literal.Precedes v)) ∧
    (∀ {σ : Type} [Record σ] (other : σ) (found' v' literal' : Value),
      path.find other = .present found' → path.column.type.coerce found' = some v' →
      v.Coincides v' → literal.Coincides literal' →
      ∀ r : Relation,
        (r.clause path literal').holds other = (r.clause path literal).holds record) ∧
    (¬v.Comparable literal →
      ∀ r : Relation, (r.clause path literal).holds record = true ↔ r = .notEqual) := by
  have hholds (r : Relation) :
      (r.clause path literal).holds record = r.admits (v.compare? literal) := by
    rw [clause_holds_of_present hfound hcoerce, holds_eq_admits hcase]
  refine ⟨fun hcomparable => ?_, ?_, fun hcomparable r => ?_⟩
  · simp only [hholds]
    exact followOrder_admits hcomparable
  · intro σ _ other found' v' literal' hfound' hcoerce' hv hliteral r
    rw [hholds, clause_holds_of_present hfound' hcoerce', holds_eq_admits hcase,
      Value.compare?_congr_left (Value.compare?_eq_eq_iff.2 hv),
      Value.compare?_congr_right (Value.compare?_eq_eq_iff.2 hliteral)]
  · rw [hholds, Value.compare?_of_not_comparable hcomparable, admits_none_iff]

/-- Two and a half, in two scales, beside two, as an integer and as a decimal, and beside a text. -/
theorem follow_order_scales :
    (Relation.greater.clause ⟨⟨"size", .json, [], true, false⟩, ["1"]⟩ (.integer 2)).holds
        (FieldMap.mk [("size", .array [.null, .decimal ⟨false, 25, 1, by decide, by decide⟩])]) =
      true ∧
    (∀ r : Relation,
      (r.clause ⟨⟨"size", .json, [], true, false⟩, ["1"]⟩
          (.decimal ⟨false, 200, 2, by decide, by decide⟩)).holds
        (FieldMap.mk [("size", .object [("1", .decimal ⟨false, 250, 2, by decide, by decide⟩)])]) =
      (r.clause ⟨⟨"size", .json, [], true, false⟩, ["1"]⟩ (.integer 2)).holds
        (FieldMap.mk [("size", .array [.null, .decimal ⟨false, 25, 1, by decide, by decide⟩])])) ∧
    ∀ r : Relation,
      (r.clause ⟨⟨"size", .json, [], true, false⟩, ["1"]⟩ (.string "2.5")).holds
        (FieldMap.mk [("size", .array [.null, .decimal ⟨false, 25, 1, by decide, by decide⟩])]) =
      true ↔ r = .notEqual := by
  have hsmall : (Value.decimal ⟨false, 25, 1, by decide, by decide⟩).number? = some (5 / 2) := by
    norm_num [Value.number?, Number.Decimal.toRat, Number.Decimal.coefficient, Number.powerOfTen]
  have hlarge : (Value.decimal ⟨false, 250, 2, by decide, by decide⟩).number? = some (5 / 2) := by
    norm_num [Value.number?, Number.Decimal.toRat, Number.Decimal.coefficient, Number.powerOfTen]
  have htwo : (Value.integer 2).number? = some 2 := rfl
  have htwo' : (Value.decimal ⟨false, 200, 2, by decide, by decide⟩).number? = some 2 := by
    norm_num [Value.number?, Number.Decimal.toRat, Number.Decimal.coefficient, Number.powerOfTen]
  refine ⟨?_, fun r => ?_, fun r => ?_⟩
  · refine ((follow_order rfl rfl rfl (.integer 2)).1 (.number hsmall htwo)).greater.2 ?_
    exact .number htwo hsmall (by norm_num)
  · exact (follow_order rfl rfl rfl (.integer 2)).2.1 _ _ _ _ rfl rfl (.number hsmall hlarge)
      (.number htwo htwo') r
  · refine (follow_order rfl rfl rfl (.string "2.5")).2.2 ?_ r
    intro h
    cases h with
    | number _ htext => cases htext

end Records

end Relation

end RecordQuery
