import RecordQuery.Order.Compare
import RecordQuery.Proofs.Clause.Leaves

/-!
# Absent fields and null ones

A record that lacks a field, and the same record with null in that field (`Record.AddsNull`), are
sorted alike. They also pass the same filters, unless a filter asks for a part of the field. Of an
absent field every part is null, but null has no parts, and so a path of keys finds null in the one
record and leads nowhere in the other. Only the tests that null passes, `is null` and `ne`, tell the
two apart, and these always do (`Filter.holds_of_addsNull`).
-/

namespace RecordQuery

/-- The second record is the first one with null under a name that the first one lacks. -/
structure Record.AddsNull {ρ : Type} [Record ρ] (name : String) (r s : ρ) : Prop where
  absent : Record.field r name = none
  null : Record.field s name = some .null
  others : ∀ other, other ≠ name → Record.field r other = Record.field s other

namespace FieldMap

theorem addsNull_cons {name : String} {fields : List (String × Value)}
    (h : fields.lookup name = none) :
    Record.AddsNull name (FieldMap.mk fields) (FieldMap.mk ((name, .null) :: fields)) where
  absent := h
  null := List.lookup_cons_self
  others other hother := by
    have hbeq : (other == name) = false := beq_false_of_ne hother
    simp [Record.field, List.lookup_cons, hbeq]

end FieldMap

namespace Json

theorem lookup_insertField_self {α : Type} (key : String) (value : α)
    (fields : List (String × α)) : (insertField key value fields).lookup key = some value := by
  induction fields with
  | nil => exact List.lookup_cons_self
  | cons field fields ih =>
      rw [insertField]
      split
      · exact List.lookup_cons_self
      · next hne =>
          split
          · exact List.lookup_cons_self
          · rw [List.lookup_cons, beq_false_of_ne hne]
            exact ih

theorem lookup_insertField_of_ne {α : Type} {key other : String} (h : other ≠ key) (value : α)
    (fields : List (String × α)) :
    (insertField key value fields).lookup other = fields.lookup other := by
  have hbeq : (other == key) = false := beq_false_of_ne h
  induction fields with
  | nil => rw [insertField, List.lookup_cons, hbeq]
  | cons field fields ih =>
      rw [insertField]
      split
      · next heq =>
          subst heq
          rw [List.lookup_cons, List.lookup_cons, hbeq]
      · split
        · rw [List.lookup_cons, hbeq]
        · rw [List.lookup_cons, List.lookup_cons, ih]

theorem addsNull_insertField {name : String} {fields : List (String × Json)}
    (h : fields.lookup name = none) :
    Record.AddsNull name (Json.object fields) (Json.object (insertField name .null fields)) where
  absent := by simp [Record.field, field?, h]
  null := by simp [Record.field, field?, lookup_insertField_self, Value.ofJson]
  others other hother := by simp [Record.field, field?, lookup_insertField_of_ne hother]

end Json

namespace Test

def passedByNull : Test → Bool
  | .criterion .isNull _ => true
  | .criterion (.relation .notEqual) _ => true
  | _ => false

theorem holds_not_present (t : Test) (column : Column) :
    t.holds column .null = t.passedByNull ∧ t.holds column .unreachable = false := by
  cases t with
  | criterion operation value =>
      cases operation with
      | relation r => cases r <;> exact ⟨rfl, rfl⟩
      | text _ | isNull | isNotNull => exact ⟨rfl, rfl⟩
  | between _ _ | oneOf _ => exact ⟨rfl, rfl⟩

end Test

theorem Value.descend_nil {v : Value} (h : v ≠ .null) : v.descend [] = .present v := by
  rw [descend, if_neg fun hnull => h (isNull_iff.1 hnull)]

namespace Path

def LeadsInto (name : String) (p : Path) : Prop :=
  p.column.name = name ∧ p.keys ≠ []

instance (name : String) (p : Path) : Decidable (p.LeadsInto name) :=
  inferInstanceAs (Decidable (_ ∧ _))

variable {ρ : Type} [Record ρ] {name : String} {r s : ρ} {p : Path}

theorem find_of_absent (h : Record.field r p.column.name = none) : p.find r = .null := by
  rw [find, h]

theorem find_of_null (h : Record.field r p.column.name = some .null) :
    p.find r = if p.keys = [] then .null else .unreachable := by
  rw [find, h]
  cases p.keys with
  | nil => rfl
  | cons key keys => rfl

theorem find_of_ne_null {v : Value} (h : Record.field r p.column.name = some v)
    (hkeys : p.keys = []) (hv : v ≠ .null) : p.find r = .present v := by
  rw [find, h, hkeys]
  exact Value.descend_nil hv

/-- Of an absent field every part is null, and of null there is no part. -/
theorem passes_of_leadsInto (h : Record.AddsNull name r s) (hp : p.LeadsInto name) (t : Test) :
    p.passes t r = t.passedByNull ∧ p.passes t s = false := by
  rcases hp with ⟨rfl, hkeys⟩
  rw [passes, passes, find_of_absent h.absent, find_of_null h.null, if_neg hkeys]
  exact t.holds_not_present p.column

theorem find_eq_of_not_leadsInto (h : Record.AddsNull name r s) (hp : ¬p.LeadsInto name) :
    p.find r = p.find s := by
  by_cases hname : p.column.name = name
  · subst hname
    have hkeys : p.keys = [] := by
      by_contra hne
      exact hp ⟨rfl, hne⟩
    rw [find_of_absent h.absent, find_of_null h.null, if_pos hkeys]
  · rw [find, find, h.others _ hname]

theorem passes_eq_of_addsNull (h : Record.AddsNull name r s) {t : Test}
    (hp : p.LeadsInto name → t.passedByNull = false) : p.passes t r = p.passes t s := by
  by_cases hinto : p.LeadsInto name
  · rcases passes_of_leadsInto h hinto t with ⟨habsent, hnull⟩
    rw [habsent, hnull, hp hinto]
  · rw [passes, passes, find_eq_of_not_leadsInto h hinto]

end Path

section Sorting

variable {ρ : Type} [Record ρ] {name : String} {r s : ρ}

theorem Column.sortValue?_eq_of_addsNull (h : Record.AddsNull name r s) (c : Column) :
    c.sortValue? r = c.sortValue? s := by
  by_cases hname : c.name = name
  · subst hname
    rw [sortValue?, sortValue?, h.absent, h.null]
    cases c.type <;> rfl
  · rw [sortValue?, sortValue?, h.others _ hname]

theorem SortKey.compareAll_eq_of_addsNull (h : Record.AddsNull name r s) (keys : List SortKey)
    (x : ρ) :
    compareAll keys r x = compareAll keys s x ∧ compareAll keys x r = compareAll keys x s := by
  induction keys with
  | nil => exact ⟨rfl, rfl⟩
  | cons k keys ih =>
      simp only [compareAll, compare, Column.sortValue?_eq_of_addsNull h, ih, and_self]

end Sorting

namespace Filter

/-- A record that lacks a field and the same record with null there are sorted alike by all keys.
They pass the same filters, if none of the tests that null passes asks for a part of the field. A
clause that does so holds for the record without the field and not for the other one, or if it is
negated, the other way round. -/
theorem holds_of_addsNull {ρ : Type} [Record ρ] {name : String} {r s : ρ}
    (h : Record.AddsNull name r s) :
    (∀ f : Filter, (∀ l ∈ f.leaves, l.1.LeadsInto name → l.2.passedByNull = false) →
      f.holds r = f.holds s) ∧
    (∀ negated conjunction path test, path.LeadsInto name → test.passedByNull = true →
      (Clause.leaf negated conjunction path test).holds r = !negated ∧
        (Clause.leaf negated conjunction path test).holds s = negated) ∧
    ∀ (keys : List SortKey) (x : ρ),
      SortKey.compareAll keys r x = SortKey.compareAll keys s x ∧
        SortKey.compareAll keys x r = SortKey.compareAll keys x s := by
  refine ⟨fun f hf => ?_, fun negated conjunction path test hinto hnull => ?_, ?_⟩
  · exact holds_congr fun l hl => Path.passes_eq_of_addsNull h (hf l hl)
  · rcases Path.passes_of_leadsInto h hinto test with ⟨habsent, hpresent⟩
    rw [Clause.holds_leaf, Clause.holds_leaf, habsent, hpresent, hnull]
    exact ⟨Bool.true_bne negated, Bool.false_bne negated⟩
  · exact SortKey.compareAll_eq_of_addsNull h

theorem holds_of_addsNull_meta :
    ∃ f, ofText staff ⟨0, 0⟩
        "not (meta['a'] gt 1 and meta is null) or (meta[\"b\"] is not null and name ne 'x')" =
          .ok f ∧
      f.holds (Json.object [("name", .string "x")]) =
        f.holds (Json.object [("meta", .null), ("name", .string "x")]) ∧
      (Clause.leaf true none ⟨⟨"meta", .json, [], true, false⟩, ["a"]⟩
        (.criterion .isNull none)).holds (Json.object [("name", .string "x")]) = false ∧
      SortKey.compareAll [⟨⟨"meta", .json, [], true, false⟩, .descending⟩]
          (Json.object [("name", .string "x")]) (Json.object [("meta", .string "y")]) =
        SortKey.compareAll [⟨⟨"meta", .json, [], true, false⟩, .descending⟩]
          (Json.object [("meta", .null), ("name", .string "x")])
          (Json.object [("meta", .string "y")]) := by
  have hread : ofText staff ⟨0, 0⟩
      "not (meta['a'] gt 1 and meta is null) or (meta[\"b\"] is not null and name ne 'x')" = .ok ⟨[
        .group true (some .or) [
          .leaf false (some .and) ⟨⟨"meta", .json, [], true, false⟩, ["a"]⟩
            (.criterion (.relation .greater) (some (.integer 1))),
          .leaf false none ⟨⟨"meta", .json, [], true, false⟩, []⟩ (.criterion .isNull none)],
        .group false none [
          .leaf false (some .and) ⟨⟨"meta", .json, [], true, false⟩, ["b"]⟩
            (.criterion .isNotNull none),
          .leaf false none ⟨⟨"name", .string, ["FullName"], false, false⟩, []⟩
            (.criterion (.relation .notEqual) (some (.string "x")))]]⟩ := by
    cbv
  have hnull : Record.AddsNull "meta" (Json.object [("name", .string "x")])
      (Json.object [("meta", .null), ("name", .string "x")]) :=
    Json.addsNull_insertField (by decide)
  rcases holds_of_addsNull hnull with ⟨hfilter, hleaf, hsort⟩
  refine ⟨_, hread, hfilter _ ?_, (hleaf _ _ _ _ ?_ rfl).1, (hsort _ _).1⟩
  · decide
  · decide

/-- A filter that asks for a part of a field tells its absence from null. -/
theorem not_holds_of_addsNull_inside :
    ¬∀ (catalog : Catalog) (now : Timestamp) (text : String) (f : Filter),
      ofText catalog now text = .ok f →
        ∀ (keys : List SortKey) (name : String) (r s : Json), Record.AddsNull name r s →
          f.holds r = f.holds s ∧
            ∀ x : Json, SortKey.compareAll keys r x = SortKey.compareAll keys s x ∧
              SortKey.compareAll keys x r = SortKey.compareAll keys x s := by
  intro h
  have hread : ofText staff ⟨0, 0⟩ "meta[\"a\"] is null" = .ok ⟨[
      .leaf false none ⟨⟨"meta", .json, [], true, false⟩, ["a"]⟩ (.criterion .isNull none)]⟩ := by
    cbv
  have hnull : Record.AddsNull "meta" (Json.object []) (Json.object [("meta", .null)]) :=
    Json.addsNull_insertField rfl
  have hsame := (h _ _ _ _ hread [] _ _ _ hnull).1
  exact absurd hsame (by decide +kernel)

end Filter

end RecordQuery
