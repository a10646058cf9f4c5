import RecordQuery.Proofs.Clause.Membership
import RecordQuery.Proofs.Clause.Ranges
import RecordQuery.Proofs.Query.StableSort

/-!
# Sorting agrees with the relations

What a record is sorted by on a column is what the tests of that column see of it, with case folded
(`Column.sortValue?_eq`). So of two records with fields of one kind, the first is sorted ahead of
the second, with it, or behind it as its field is less than, equal to, or greater than the other
one.

A range takes in all that lies between two of its members. In a list that is sorted by the column,
in either direction, the records in a range therefore stand side by side
(`SortKey.agrees_with_relations`), whatever is missing or of another shape in the others.
-/

namespace RecordQuery

open Std (OrientedCmp TransCmp)

section Blocks

variable {α : Type} {p : α → Bool} {l : List α}

/-- The members of a list that have a property stand side by side. -/
def IsBlock (p : α → Bool) (l : List α) : Prop :=
  ∃ before block behind, l = before ++ block ++ behind ∧ (∀ a ∈ before, p a = false) ∧
    (∀ a ∈ block, p a = true) ∧ ∀ a ∈ behind, p a = false

/-- A sorted list has the property in a block if it passes on to what lies between two members. -/
theorem isBlock_of_pairwise {le : α → α → Prop} (sorted : l.Pairwise le)
    (between : ∀ a b c, le a b → le b c → p a = true → p c = true → p b = true) :
    IsBlock p l := by
  induction l with
  | nil => exact ⟨[], [], [], rfl, by simp, by simp, by simp⟩
  | cons a l ih =>
      obtain ⟨first, sorted⟩ := List.pairwise_cons.1 sorted
      obtain ⟨before, block, behind, rfl, hbefore, hblock, hbehind⟩ := ih sorted
      cases ha : p a with
      | false =>
          refine ⟨a :: before, block, behind, rfl, ?_, hblock, hbehind⟩
          exact List.forall_mem_cons.2 ⟨ha, hbefore⟩
      | true =>
          cases block with
          | nil =>
              refine ⟨[], [a], before ++ behind, by simp, by simp, by simpa using ha, ?_⟩
              exact List.forall_mem_append.2 ⟨hbefore, hbehind⟩
          | cons c block =>
              have hnone : before = [] := by
                refine List.eq_nil_iff_forall_not_mem.2 fun b hb => ?_
                rw [List.append_assoc, List.pairwise_append] at sorted
                have hbc := sorted.2.2 b hb c (by simp)
                have hholds := between a b c (first b (by simp [hb])) hbc ha
                  (hblock c List.mem_cons_self)
                rw [hbefore b hb] at hholds
                cases hholds
              subst hnone
              refine ⟨[], a :: c :: block, behind, rfl, by simp, ?_, hbehind⟩
              exact List.forall_mem_cons.2 ⟨ha, hblock⟩

end Blocks

section Kinds

variable {v w x y : Value}

/-- Values in the shape of one type are of one kind, but for documents. -/
theorem FieldType.comparable_of_coerce {type : FieldType} (htype : type ≠ .json)
    (hv : type.coerce v = some x) (hw : type.coerce w = some y) : x.Comparable y := by
  have hnumber {type : FieldType} (htype : type = .integer ∨ type = .decimal) {v x : Value}
      (h : type.coerce v = some x) : ∃ q, x.number? = some q := by
    rcases htype with rfl | rfl <;> cases v <;> cases h <;> exact ⟨_, rfl⟩
  cases type with
  | json => exact absurd rfl htype
  | string =>
      cases v <;> cases hv
      cases w <;> cases hw
      exact .text _ _
  | boolean =>
      cases v <;> cases hv
      cases w <;> cases hw
      exact .truth _ _
  | date =>
      have hdate {v x : Value} (h : coerce .date v = some x) : ∃ t, x = .date t := by
        cases v with
        | string s =>
            obtain ⟨t, -, rfl⟩ := Option.map_eq_some_iff.1 h
            exact ⟨t, rfl⟩
        | date t =>
            cases h
            exact ⟨t, rfl⟩
        | null | boolean _ | integer _ | decimal _ | array _ | object _ => cases h
      obtain ⟨t, rfl⟩ := hdate hv
      obtain ⟨u, rfl⟩ := hdate hw
      exact .time t u
  | integer | decimal =>
      obtain ⟨q, hq⟩ := hnumber (by decide) hv
      obtain ⟨r, hr⟩ := hnumber (by decide) hw
      exact .number hq hr

theorem FieldType.coerce_ne_null {type : FieldType} (h : v ≠ .null) :
    type.coerce v ≠ some .null := by
  cases type <;> cases v <;> simp_all [coerce]

theorem Value.Comparable.ne_null (h : v.Comparable w) : v ≠ .null := by
  rintro rfl
  cases h with
  | number hnull _ => cases hnull

end Kinds

section Ranges

variable {column : Column} {a b c literal : Value}

namespace Relation

variable {r : Relation}

/-- A relation that holds is one between values of one kind, unless it is `notEqual`. -/
theorem comparable_of_holds (hcase : column.caseInsensitive = false) (hr : r ≠ .notEqual)
    (h : r.holds column a literal = true) : a.Comparable literal := by
  by_contra hnot
  rw [holds_eq_admits hcase, Value.compare?_of_not_comparable hnot, admits_none_iff] at h
  exact hr h

/-- What lies between two values that stand in a relation stands in it too. -/
theorem holds_of_isLE_of_isLE (hcase : column.caseInsensitive = false) (hr : r ≠ .notEqual)
    (hkind : b.Comparable a) (hab : (a.sortCompare b).isLE = true)
    (hbc : (b.sortCompare c).isLE = true) (ha : r.holds column a literal = true)
    (hc : r.holds column c literal = true) : r.holds column b literal = true := by
  have hacompare := Value.compare?_of_comparable (comparable_of_holds hcase hr ha)
  have hbcompare := Value.compare?_of_comparable (hkind.trans (comparable_of_holds hcase hr ha))
  have hccompare := Value.compare?_of_comparable (comparable_of_holds hcase hr hc)
  have hba : (b.sortCompare a).isGE = true := OrientedCmp.isGE_iff_isLE.2 hab
  rw [holds_eq_admits hcase, hacompare] at ha
  rw [holds_eq_admits hcase, hccompare] at hc
  rw [holds_eq_admits hcase, hbcompare]
  cases r with
  | notEqual => exact absurd rfl hr
  | equal =>
      simp only [admits, beq_iff_eq, Option.some.injEq] at ha hc ⊢
      have hle : (b.sortCompare literal).isLE = true :=
        TransCmp.isLE_trans hbc (Ordering.isLE_iff_eq_lt_or_eq_eq.2 (.inr hc))
      have hge : (b.sortCompare literal).isGE = true :=
        TransCmp.isGE_trans hba (Ordering.isGE_iff_eq_gt_or_eq_eq.2 (.inr ha))
      exact OrientedCmp.isLE_antisymm hle (OrientedCmp.isGE_iff_isLE.1 hge)
  | less =>
      simp only [admits, beq_iff_eq, Option.some.injEq] at hc ⊢
      exact TransCmp.lt_of_isLE_of_lt hbc hc
  | greater =>
      simp only [admits, beq_iff_eq, Option.some.injEq] at ha ⊢
      exact TransCmp.gt_of_isGE_of_gt hba ha
  | lessOrEqual =>
      simp only [admits, beq_iff_eq, Option.some.injEq, Bool.or_eq_true,
        ← Ordering.isLE_iff_eq_lt_or_eq_eq] at hc ⊢
      exact TransCmp.isLE_trans hbc hc
  | greaterOrEqual =>
      simp only [admits, beq_iff_eq, Option.some.injEq, Bool.or_eq_true,
        ← Ordering.isGE_iff_eq_gt_or_eq_eq] at ha ⊢
      exact TransCmp.isGE_trans hba ha

end Relation

namespace Test

inductive IsRange : Test → Prop
  | relation {r : Relation} (literal : Value) (h : r ≠ .notEqual) :
      IsRange (.criterion (.relation r) (some literal))
  | between (lower upper : Value) : IsRange (.between lower upper)

variable {t : Test}

theorem IsRange.holdsOf_of_isLE_of_isLE (h : t.IsRange) (hcase : column.caseInsensitive = false)
    (hkind : b.Comparable a) (hab : (a.sortCompare b).isLE = true)
    (hbc : (b.sortCompare c).isLE = true) (ha : t.holdsOf column a = true)
    (hc : t.holdsOf column c = true) : t.holdsOf column b = true := by
  cases h with
  | relation literal hr => exact Relation.holds_of_isLE_of_isLE hcase hr hkind hab hbc ha hc
  | between lower upper =>
      rw [holdsOf_between, Bool.and_eq_true] at ha hc ⊢
      exact ⟨Relation.holds_of_isLE_of_isLE hcase (by decide) hkind hab hbc ha.1 hc.1,
        Relation.holds_of_isLE_of_isLE hcase (by decide) hkind hab hbc ha.2 hc.2⟩

end Test

end Ranges

section Records

variable {ρ : Type} [Record ρ] {record a b c : ρ} {column : Column} {root v w : Value}

namespace Column

theorem comparable_folded (column : Column) (h : v.Comparable w) :
    (column.folded v).Comparable (column.folded w) := by
  cases h with
  | number hv hw =>
      rw [folded_of_number hv, folded_of_number hw]
      exact .number hv hw
  | text s t => exact .text _ _
  | truth x y => exact .truth x y
  | time t u => exact .time t u

/-- A record is sorted by what the tests of the column see of it, with case folded. -/
theorem sortValue?_eq (column : Column) (record : ρ) :
    column.sortValue? record =
      (((Path.mk column []).find record).shaped? column.type).map column.folded := by
  unfold sortValue? Path.find
  cases hfield : Record.field record column.name with
  | none => rfl
  | some root =>
      simp only [Option.bind_some]
      by_cases hnull : root = .null
      · subst hnull
        cases column.type <;> rfl
      · rw [Value.descend_nil hnull, Found.shaped?]
        have hne : column.type.coerce root ≠ some .null := FieldType.coerce_ne_null hnull
        cases hv : column.type.coerce root with
        | none => rfl
        | some v =>
            cases v with
            | null => exact absurd hv hne
            | boolean _ | integer _ | decimal _ | string _ | date _ | array _ | object _ => rfl

theorem sortValue?_of_present (hfound : (Path.mk column []).find record = .present root)
    (hcoerce : column.type.coerce root = some v) :
    column.sortValue? record = some (column.folded v) := by
  rw [sortValue?_eq, hfound, Found.shaped?, hcoerce, Option.map_some]

/-- A field with a value in the shape of its column is not null, unless that value is. -/
theorem find_of_coerce (hroot : Record.field record column.name = some root)
    (hcoerce : column.type.coerce root = some v) (hv : v ≠ .null) :
    (Path.mk column []).find record = .present root := by
  have hne : root ≠ .null := by
    rintro rfl
    cases htype : column.type <;> rw [htype] at hcoerce <;> cases hcoerce
    exact hv rfl
  exact Path.find_of_ne_null hroot rfl hne

/-- Without folding, a sorted record is found by the tests of the column to hold the value that it
is sorted by. -/
theorem shaped?_eq_sortValue? (hcase : column.caseInsensitive = false) (record : ρ) :
    ((Path.mk column []).find record).shaped? column.type = column.sortValue? record := by
  rw [sortValue?_eq, funext (folded_of_caseSensitive hcase), Option.map_id']

theorem comparable_of_sortValue? (htype : column.type ≠ .json)
    (ha : column.sortValue? a = some v) (hb : column.sortValue? b = some w) : v.Comparable w := by
  have hcoerce {r : ρ} {v : Value} (h : column.sortValue? r = some v) :
      ∃ x y, column.type.coerce x = some y ∧ column.folded y = v := by
    rw [sortValue?_eq, Option.map_eq_some_iff] at h
    obtain ⟨y, hy, hfolded⟩ := h
    cases hfound : (Path.mk column []).find r with
    | present x =>
        rw [hfound] at hy
        exact ⟨x, y, hy, hfolded⟩
    | null | unreachable =>
        rw [hfound] at hy
        cases hy
  obtain ⟨x, v, hv, rfl⟩ := hcoerce ha
  obtain ⟨y, w, hw, rfl⟩ := hcoerce hb
  exact column.comparable_folded (FieldType.comparable_of_coerce htype hv hw)

end Column

namespace Test

variable {t : Test}

theorem IsRange.passes_eq_any (h : t.IsRange) (hcase : column.caseInsensitive = false)
    (record : ρ) :
    (Path.mk column []).passes t record = (column.sortValue? record).any (t.holdsOf column) := by
  have hnull : t.asksForNull = false ∧ t.passedByNull = false := by
    cases h with
    | @relation r literal hr => cases r <;> simp_all [asksForNull, passedByNull]
    | between lower upper => exact ⟨rfl, rfl⟩
  rw [Path.passes, holds_eq_any hnull.1 hnull.2, Column.shaped?_eq_sortValue? hcase]

/-- A record that is sorted between two records in a range is in the range. -/
theorem IsRange.passes_of_isLE_of_isLE (h : t.IsRange) (htype : column.type ≠ .json)
    (hcase : column.caseInsensitive = false)
    (hab : (compareOptional (column.sortValue? a) (column.sortValue? b)).isLE = true)
    (hbc : (compareOptional (column.sortValue? b) (column.sortValue? c)).isLE = true)
    (ha : (Path.mk column []).passes t a = true) (hc : (Path.mk column []).passes t c = true) :
    (Path.mk column []).passes t b = true := by
  rw [h.passes_eq_any hcase, Option.any_eq_true] at ha hc ⊢
  obtain ⟨u, hu, ha⟩ := ha
  obtain ⟨w, hw, hc⟩ := hc
  rw [hu] at hab
  rw [hw] at hbc
  cases hv : column.sortValue? b with
  | none =>
      rw [hv] at hab
      cases hab
  | some v =>
      rw [hv] at hab hbc
      have hkind := Column.comparable_of_sortValue? htype hv hu
      exact ⟨v, rfl, h.holdsOf_of_isLE_of_isLE hcase hkind hab hbc ha hc⟩

end Test

end Records

namespace SortKey

variable {ρ : Type} [Record ρ] {column : Column}

/-- By a column alone, records are compared by what they hold in its shape, with case folded. -/
theorem compareAll_ascending {a b : ρ} {left right v w : Value}
    (ha : (Path.mk column []).find a = .present left) (hv : column.type.coerce left = some v)
    (hb : (Path.mk column []).find b = .present right) (hw : column.type.coerce right = some w) :
    compareAll [⟨column, .ascending⟩] a b = (column.folded v).sortCompare (column.folded w) := by
  rw [compareAll_singleton, compare, Column.sortValue?_of_present ha hv,
    Column.sortValue?_of_present hb hw]
  rfl

/-- In a list that is sorted by a column, the records in a range of it stand side by side. -/
theorem isBlock_sort (htype : column.type ≠ .json) (hcase : column.caseInsensitive = false)
    {t : Test} (ht : t.IsRange) (direction : Direction) (records : List ρ) :
    IsBlock ((Path.mk column []).passes t) (sort [⟨column, direction⟩] records) := by
  refine isBlock_of_pairwise (pairwise_sort [⟨column, direction⟩] records) ?_
  intro a b c hab hbc ha hc
  rw [compareAll_singleton, compare, ne_eq, ← Ordering.isLE_iff_ne_gt] at hab hbc
  cases direction with
  | ascending => exact ht.passes_of_isLE_of_isLE htype hcase hab hbc ha hc
  | descending =>
      rw [Direction.apply, Ordering.isLE_swap, OrientedCmp.isGE_iff_isLE] at hab hbc
      exact ht.passes_of_isLE_of_isLE htype hcase hbc hab hc ha

/-- What the order by a column and the relations of that column say of the same records. Of two
records with fields of one kind, the first comes with the second exactly if its field is equal to
the other one; and if case is not ignored, ahead of it or behind it exactly if its field is less or
greater. In a list that is sorted by the column, in either direction, the records in a range stand
side by side, if the column is none of documents and does not ignore case. -/
theorem agrees_with_relations (column : Column) :
    (∀ {ρ : Type} [Record ρ] (a b : ρ) (left right v w : Value),
      Record.field a column.name = some left → column.type.coerce left = some v →
      Record.field b column.name = some right → column.type.coerce right = some w →
      v.Comparable w →
      (compareAll [⟨column, .ascending⟩] a b = .eq ↔
        (Relation.equal.clause ⟨column, []⟩ w).holds a = true) ∧
      (column.caseInsensitive = false →
        (compareAll [⟨column, .ascending⟩] a b = .lt ↔
          (Relation.less.clause ⟨column, []⟩ w).holds a = true) ∧
        (compareAll [⟨column, .ascending⟩] a b = .gt ↔
          (Relation.greater.clause ⟨column, []⟩ w).holds a = true))) ∧
    (column.type ≠ .json → column.caseInsensitive = false →
      ∀ {ρ : Type} [Record ρ] (direction : Direction) (number : Nat) (records : List ρ)
        (conjunction : Option Conjunction) (test : Test), test.IsRange →
        IsBlock (fun record => (Clause.leaf false conjunction ⟨column, []⟩ test).holds record)
          (Query.apply ⟨{}, [⟨column, direction⟩], none, number⟩ records)) := by
  constructor
  · intro ρ _ a b left right v w hleft hv hright hw hkind
    have hfound := Column.find_of_coerce hleft hv hkind.ne_null
    have hholds (r : Relation) : (r.clause ⟨column, []⟩ w).holds a = r.holds column v w :=
      Relation.clause_holds_of_present hfound hv r w
    rw [hholds, hholds, hholds, compareAll_ascending hfound hv
      (Column.find_of_coerce hright hw hkind.symm.ne_null) hw]
    refine ⟨?_, fun hcase => ?_⟩
    · rw [Relation.holds, Column.equates_eq,
        Value.compare?_of_comparable (column.comparable_folded hkind), beq_iff_eq,
        Option.some.injEq]
    · simp only [Relation.holds_eq_admits hcase, Column.folded_of_caseSensitive hcase,
        Value.compare?_of_comparable hkind, Relation.admits, beq_iff_eq, Option.some.injEq,
        and_self]
  · intro htype hcase ρ _ direction number records conjunction test ht
    have hselect : Filter.select {} records = records :=
      List.filter_eq_self.2 fun record _ => Filter.holds_empty record
    have hleaf :
        (fun record : ρ => (Clause.leaf false conjunction ⟨column, []⟩ test).holds record) =
          (Path.mk column []).passes test :=
      funext fun record => by rw [Clause.holds_leaf, Bool.bne_false]
    rw [hleaf, Query.apply, hselect]
    exact isBlock_sort htype hcase ht direction records

/-- Texts on a column that ignores case, and a list with numbers in two variants, a field that is
missing and one of another shape. -/
theorem agrees_with_relations_mixed :
    (Relation.equal.clause ⟨⟨"name", .string, [], false, true⟩, []⟩ (.string "anna")).holds
        (FieldMap.mk [("name", .string "ANNA")]) = true ∧
    (Relation.less.clause ⟨⟨"size", .json, [], true, false⟩, []⟩
          (.decimal ⟨false, 25, 1, by decide, by decide⟩)).holds
        (FieldMap.mk [("size", .integer 2)]) = true ∧
    IsBlock
      (fun record => (Clause.leaf false none ⟨⟨"size", .decimal, [], false, false⟩, []⟩
        (.between (.integer 1) (.decimal ⟨false, 25, 1, by decide, by decide⟩))).holds record)
      (Query.apply ⟨{}, [⟨⟨"size", .decimal, [], false, false⟩, .descending⟩], none, 0⟩
        [FieldMap.mk [("size", .integer 2)], FieldMap.mk [], FieldMap.mk [("size", .string "2")],
          FieldMap.mk [("size", .integer 7)],
          FieldMap.mk [("size", .decimal ⟨false, 250, 2, by decide, by decide⟩)]]) := by
  have hhalf : (Value.decimal ⟨false, 25, 1, by decide, by decide⟩).number? = some (5 / 2) := by
    norm_num [Value.number?, Number.Decimal.toRat, Number.Decimal.coefficient, Number.powerOfTen]
  refine ⟨?_, ?_, ?_⟩
  · refine ((agrees_with_relations _).1 _ (FieldMap.mk [("name", .string "anna")]) _ _ _ _ rfl rfl
      rfl rfl (.text _ _)).1.1 ?_
    decide +kernel
  · refine (((agrees_with_relations _).1 _
      (FieldMap.mk [("size", .decimal ⟨false, 25, 1, by decide, by decide⟩)]) _ _ _ _ rfl rfl
      rfl rfl (.number rfl hhalf)).2 rfl).1.1 ?_
    decide +kernel
  · exact (agrees_with_relations _).2 (by decide) rfl .descending 0 _ none _ (.between _ _)

end SortKey

end RecordQuery
