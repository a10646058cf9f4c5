import RecordQuery.Proofs.Clause.Folding
import RecordQuery.Proofs.Clause.Relations

/-!
# Lists of literals are sets

`in` asks whether a field is equal to one of some literals, and so it comes to the same as these
equalities joined by `or` (`Clause.sequenceHolds_equalsAny`). Equality on a column is symmetric and
transitive, across integers and decimals and, where case is ignored, across texts that are the same
in lower case (`Column.equates_eq`). Hence the order of the literals counts for nothing, nor how
often one of them occurs, nor which of several equal literals it is (`Clause.oneOf_holds_iff`).
-/

namespace RecordQuery

namespace Column

variable {c : Column} {a b v : Value}

def folded (c : Column) : Value → Value
  | .string s => .string (if c.caseInsensitive then Text.lower s else s)
  | v => v

theorem folded_of_caseSensitive (hcase : c.caseInsensitive = false) (v : Value) :
    c.folded v = v := by
  cases v <;> simp [folded, hcase]

theorem folded_of_number {q : ℚ} (hv : v.number? = some q) : c.folded v = v := by
  cases v with
  | string _ => cases hv
  | null | boolean _ | integer _ | decimal _ | date _ | array _ | object _ => rfl

/-- Values are equal on a column if they compare as equal once case is folded. -/
theorem equates_eq (c : Column) (a b : Value) :
    c.equates a b = ((c.folded a).compare? (c.folded b) == some .eq) := by
  unfold equates
  cases hcase : c.caseInsensitive with
  | false => rw [folded_of_caseSensitive hcase, folded_of_caseSensitive hcase]
  | true =>
      cases a <;> cases b <;> simp [folded, hcase, Value.compare?, Bool.beq_eq_decide_eq]

theorem equates_comm (c : Column) (a b : Value) : c.equates a b = c.equates b a := by
  rw [equates_eq, equates_eq, Value.compare?_swap]
  rcases (c.folded b).compare? (c.folded a) with _ | _ | _ | _ <;> rfl

theorem equates_congr (h : c.equates a b = true) (v : Value) : c.equates v a = c.equates v b := by
  rw [equates_eq, beq_iff_eq] at h
  rw [equates_eq, equates_eq, Value.compare?_congr_right h]

/-- Each of the first values is among the second, or equal to one of them on the column. -/
def Covers (c : Column) (others values : List Value) : Prop :=
  ∀ v ∈ values, ∃ w ∈ others, v = w ∨ c.equates v w = true

/-- The lists have the same values up to equality on the column. -/
def SameSet (c : Column) (values others : List Value) : Prop :=
  c.Covers others values ∧ c.Covers values others

theorem any_equates_of_covers {values others : List Value} (h : c.Covers others values)
    (hany : values.any (c.equates v) = true) : others.any (c.equates v) = true := by
  rw [List.any_eq_true] at hany ⊢
  obtain ⟨l, hl, hv⟩ := hany
  obtain ⟨m, hm, rfl | heq⟩ := h l hl
  · exact ⟨l, hm, hv⟩
  · exact ⟨m, hm, (equates_congr heq v).symm.trans hv⟩

theorem any_equates_of_sameSet {values others : List Value} (h : c.SameSet values others)
    (v : Value) : others.any (c.equates v) = values.any (c.equates v) :=
  Bool.eq_iff_iff.2 ⟨any_equates_of_covers h.2, any_equates_of_covers h.1⟩

theorem covers_of_subset {values others : List Value} (h : values ⊆ others) :
    c.Covers others values :=
  fun v hv => ⟨v, h hv, .inl rfl⟩

theorem sameSet_of_perm {values others : List Value} (h : values.Perm others) :
    c.SameSet values others :=
  ⟨covers_of_subset h.subset, covers_of_subset h.symm.subset⟩

theorem sameSet_of_mem {first rest : List Value} (h : v ∈ first ++ rest) :
    c.SameSet (first ++ rest) (first ++ v :: rest) := by
  refine ⟨covers_of_subset fun w hw => ?_, covers_of_subset fun w hw => ?_⟩
  · rw [List.mem_append] at hw ⊢
    exact hw.imp id (List.mem_cons_of_mem v)
  · rcases List.mem_append.1 hw with hfirst | hrest
    · exact List.mem_append_left rest hfirst
    · rcases List.mem_cons.1 hrest with rfl | hrest
      · exact h
      · exact List.mem_append_right first hrest

theorem covers_of_equates {first rest : List Value} (h : c.equates a b = true) :
    c.Covers (first ++ b :: rest) (first ++ a :: rest) := by
  intro v hv
  rcases List.mem_append.1 hv with hfirst | hrest
  · exact ⟨v, List.mem_append_left _ hfirst, .inl rfl⟩
  · rcases List.mem_cons.1 hrest with rfl | hrest
    · exact ⟨b, List.mem_append_right first List.mem_cons_self, .inr h⟩
    · exact ⟨v, List.mem_append_right first (List.mem_cons_of_mem b hrest), .inl rfl⟩

theorem sameSet_of_equates {first rest : List Value} (h : c.equates a b = true) :
    c.SameSet (first ++ a :: rest) (first ++ b :: rest) :=
  ⟨covers_of_equates h, covers_of_equates ((c.equates_comm b a).trans h)⟩

end Column

namespace Test

/-- Whatever has been found is in a list exactly if it is equal to one of its values. -/
theorem holds_oneOf (column : Column) (found : Found) (values : List Value) :
    (oneOf values).holds column found =
      values.any fun l => (criterion (.relation .equal) (some l)).holds column found := by
  have hequal (l : Value) : (criterion (.relation .equal) (some l)).holds column found =
      (found.shaped? column.type).any fun v => column.equates v l :=
    holds_eq_any rfl rfl column found
  simp only [hequal]
  rw [holds_eq_any rfl rfl]
  cases found.shaped? column.type with
  | none => exact (List.any_eq_false.2 fun _ _ => Bool.false_ne_true).symm
  | some v => rfl

theorem holds_oneOf_of_sameSet {column : Column} {values others : List Value}
    (h : column.SameSet values others) (found : Found) :
    (oneOf others).holds column found = (oneOf values).holds column found := by
  rw [holds_eq_any rfl rfl, holds_eq_any rfl rfl]
  cases found.shaped? column.type with
  | none => rfl
  | some v => exact Column.any_equates_of_sameSet h v

end Test

namespace Clause

variable {ρ : Type} [Record ρ] (record : ρ) (path : Path)

/-- The clauses that ask whether a field is equal to each of some literals, joined by `or`. -/
def equalsAny (path : Path) : List Value → List Clause
  | [] => []
  | [l] => [Relation.equal.clause path l]
  | l :: m :: literals =>
    (Relation.equal.clause path l).withConjunction (some .or) :: equalsAny path (m :: literals)

theorem restHolds_equalsAny (result : Bool) (literals : List Value) :
    restHolds record result (some .or) (equalsAny path literals) =
      (result || literals.any fun l => (Relation.equal.clause path l).holds record) := by
  fun_induction equalsAny path literals generalizing result with
  | case1 => simp [restHolds]
  | case2 l => simp [restHolds, joinBy]
  | case3 l m literals ih =>
      rw [restHolds, conjunction_withConjunction, holds_withConjunction, ih,
        List.any_cons (a := l), joinBy, Bool.or_assoc]

theorem sequenceHolds_equalsAny {literals : List Value} (h : literals ≠ []) :
    sequenceHolds record (equalsAny path literals) =
      literals.any fun l => (Relation.equal.clause path l).holds record := by
  cases literals with
  | nil => exact absurd rfl h
  | cons l literals =>
      cases literals with
      | nil => simp [equalsAny, sequenceHolds_singleton]
      | cons m literals =>
          rw [equalsAny, sequenceHolds, conjunction_withConjunction, holds_withConjunction,
            restHolds_equalsAny, List.any_cons (a := l)]

theorem oneOf_holds (negated : Bool) (conjunction : Option Conjunction) (literals : List Value) :
    (leaf negated conjunction path (.oneOf literals)).holds record =
      ((literals.any fun l => (Relation.equal.clause path l).holds record) != negated) := by
  simp only [holds_leaf, Relation.clause_holds, Path.passes, Test.holds_oneOf]

/-- A list of literals is passed like the equalities to them, joined by `or`, and a negated one
like the negation of these, whatever the field holds. It is passed alike by every list with the same
literals up to equality on the column: in another order, with a literal once more, or with a literal
in place of one that it is equal to. -/
theorem oneOf_holds_iff {literals : List Value} (hne : literals ≠ [])
    (conjunction : Option Conjunction) :
    ((leaf false conjunction path (.oneOf literals)).holds record = true ↔
      sequenceHolds record (equalsAny path literals) = true) ∧
    ((leaf true conjunction path (.oneOf literals)).holds record = true ↔
      ¬sequenceHolds record (equalsAny path literals) = true) ∧
    (∀ others, path.column.SameSet literals others → ∀ negated,
      (leaf negated conjunction path (.oneOf others)).holds record =
        (leaf negated conjunction path (.oneOf literals)).holds record) ∧
    (∀ others, literals.Perm others → path.column.SameSet literals others) ∧
    (∀ first rest l, literals = first ++ rest → l ∈ literals →
      path.column.SameSet literals (first ++ l :: rest)) ∧
    (∀ first rest l m, literals = first ++ l :: rest → path.column.equates l m = true →
      path.column.SameSet literals (first ++ m :: rest)) := by
  have hany := sequenceHolds_equalsAny record path hne
  refine ⟨?_, ?_, fun others hsame negated => ?_, fun others => Column.sameSet_of_perm, ?_, ?_⟩
  · rw [oneOf_holds, hany, Bool.bne_false]
  · rw [oneOf_holds, hany, Bool.bne_true, Bool.not_eq_true', Bool.not_eq_true]
  · rw [holds_leaf, holds_leaf, Path.passes, Path.passes, Test.holds_oneOf_of_sameSet hsame]
  · rintro first rest l rfl hl
    exact Column.sameSet_of_mem hl
  · rintro first rest l m rfl hlm
    exact Column.sameSet_of_equates hlm

/-- Three in another scale, and a text in another case, on a column that ignores it. -/
theorem oneOf_holds_iff_folded :
    ((leaf false none ⟨⟨"code", .json, [], false, true⟩, []⟩
        (.oneOf [.integer 3, .string "aBc"])).holds
      (FieldMap.mk [("code", .string "abc")]) = true ↔
      sequenceHolds (FieldMap.mk [("code", .string "abc")])
        (equalsAny ⟨⟨"code", .json, [], false, true⟩, []⟩ [.integer 3, .string "aBc"]) = true) ∧
    (leaf true none ⟨⟨"code", .json, [], false, true⟩, []⟩
        (.oneOf [.decimal ⟨false, 300, 2, by decide, by decide⟩, .string "ABC"])).holds
      (FieldMap.mk [("code", .string "abc")]) =
    (leaf true none ⟨⟨"code", .json, [], false, true⟩, []⟩
        (.oneOf [.integer 3, .string "aBc"])).holds
      (FieldMap.mk [("code", .string "abc")]) := by
  have hfirst := oneOf_holds_iff (FieldMap.mk [("code", .string "abc")])
    ⟨⟨"code", .json, [], false, true⟩, []⟩ (List.cons_ne_nil (.integer 3) [.string "aBc"]) none
  have hsecond := oneOf_holds_iff (FieldMap.mk [("code", .string "abc")])
    ⟨⟨"code", .json, [], false, true⟩, []⟩
    (List.cons_ne_nil (.decimal ⟨false, 300, 2, by decide, by decide⟩) [.string "aBc"]) none
  refine ⟨hfirst.1, (hsecond.2.2.1 _ ?_ true).trans (hfirst.2.2.1 _ ?_ true)⟩
  · exact hsecond.2.2.2.2.2 [_] [] (.string "aBc") (.string "ABC") rfl (by decide +kernel)
  · exact hfirst.2.2.2.2.2 [] [_] (.integer 3) _ rfl (by decide +kernel)

end Clause

end RecordQuery
