import RecordQuery.Proofs.Query.StableSort

/-!
# Sorting by one key after another

Sorting by several keys at once is the same as sorting by each of them alone, one after the other,
from the last key to the first (`Query.sortedInTurn_iff_apply`). Each of these sorts has to be
stable, and that is all there is to it: it leaves the records that its key does not tell apart in
the order to which the later keys have brought them.

A stable sort is described without an algorithm (`IsStableSort`), and there is only one for a given
list and comparison (`IsStableSort.unique`).
-/

namespace RecordQuery

open Std (OrientedCmp ReflCmp TransCmp)

section StableSorts

variable {α : Type} {cmp : α → α → Ordering} {given sorted s t : List α}

/-- The second list is the first one in the order of a comparison, and what the comparison does not
tell apart has kept its order. -/
structure IsStableSort (cmp : α → α → Ordering) (given sorted : List α) : Prop where
  perm : sorted.Perm given
  ordered : sorted.Pairwise fun a b => cmp a b ≠ .gt
  stable : ∀ a, sorted.filter (cmp a · == .eq) = given.filter (cmp a · == .eq)

theorem filter_cons_of_eq {a b : α} (h : cmp a b = .eq) (l : List α) :
    (b :: l).filter (cmp a · == .eq) = b :: l.filter (cmp a · == .eq) :=
  List.filter_cons_of_pos (beq_iff_eq.2 h)

/-- What comes first in one of two ordered lists with the same members has the place of what comes
first in the other. -/
theorem compare_eq_of_perm_cons [TransCmp cmp] {a b : α} (hperm : (a :: s).Perm (b :: t))
    (hs : (a :: s).Pairwise fun a b => cmp a b ≠ .gt)
    (ht : (b :: t).Pairwise fun a b => cmp a b ≠ .gt) : cmp a b = .eq := by
  have first {c d : α} {l : List α} (h : (c :: l).Pairwise fun a b => cmp a b ≠ .gt)
      (hd : d ∈ c :: l) : (cmp c d).isLE = true := by
    rcases List.mem_cons.1 hd with rfl | hd
    · exact Ordering.isLE_iff_eq_lt_or_eq_eq.2 (.inr ReflCmp.compare_self)
    · exact Ordering.isLE_iff_ne_gt.2 ((List.pairwise_cons.1 h).1 d hd)
  exact OrientedCmp.isLE_antisymm (first hs (hperm.mem_iff.2 List.mem_cons_self))
    (first ht (hperm.mem_iff.1 List.mem_cons_self))

/-- Ordered lists with the same members are equal if these have the same order wherever the
comparison does not tell them apart. -/
theorem eq_of_perm_of_filter_eq [TransCmp cmp] (hperm : s.Perm t)
    (hs : s.Pairwise fun a b => cmp a b ≠ .gt) (ht : t.Pairwise fun a b => cmp a b ≠ .gt)
    (h : ∀ a, s.filter (cmp a · == .eq) = t.filter (cmp a · == .eq)) : s = t := by
  induction s generalizing t with
  | nil => exact hperm.nil_eq
  | cons a s ih =>
      cases t with
      | nil => exact absurd hperm.eq_nil (List.cons_ne_nil a s)
      | cons b t =>
          have hab := compare_eq_of_perm_cons hperm hs ht
          have hclass := h a
          rw [filter_cons_of_eq ReflCmp.compare_self, filter_cons_of_eq hab] at hclass
          obtain rfl := (List.cons.inj hclass).1
          congr 1
          refine ih hperm.cons_inv (List.pairwise_cons.1 hs).2 (List.pairwise_cons.1 ht).2 ?_
          intro c
          have hc := h c
          rw [List.filter_cons, List.filter_cons] at hc
          split at hc
          · exact (List.cons.inj hc).2
          · exact hc

theorem IsStableSort.unique [TransCmp cmp] (hs : IsStableSort cmp given s)
    (ht : IsStableSort cmp given t) : s = t :=
  eq_of_perm_of_filter_eq (hs.perm.trans ht.perm.symm) hs.ordered ht.ordered fun a =>
    (hs.stable a).trans (ht.stable a).symm

/-- In a stable sort, what the comparison does not tell apart comes in the given order. -/
theorem IsStableSort.sublist_given [ReflCmp cmp] {a b : α} (h : IsStableSort cmp given sorted)
    (hsub : [a, b].Sublist sorted) (hab : cmp a b = .eq) : [a, b].Sublist given := by
  have hclass := hsub.filter (cmp a · == .eq)
  rw [h.stable, filter_cons_of_eq ReflCmp.compare_self, filter_cons_of_eq hab] at hclass
  exact hclass.trans List.filter_sublist

end StableSorts

namespace SortKey

variable {ρ : Type} [Record ρ] {k : SortKey} {keys : List SortKey}
  {given between sorted : List ρ}

/-- The second list comes from the first one by stable sorts, each by a single key, from the last
key to the first. -/
inductive SortedInTurn : List SortKey → List ρ → List ρ → Prop
  | nil (given : List ρ) : SortedInTurn [] given given
  | cons {k : SortKey} {keys : List SortKey} {given between sorted : List ρ}
      (others : SortedInTurn keys given between)
      (sorts : IsStableSort (fun a b => k.compare a b) between sorted) :
      SortedInTurn (k :: keys) given sorted

theorem isStableSort_sort (keys : List SortKey) (given : List ρ) :
    IsStableSort (fun a b => compareAll keys a b) given (sort keys given) where
  perm := sort_perm keys given
  ordered := pairwise_sort keys given
  stable a := filter_sort_of_eq keys a given

/-- A stable sort by a more important key goes on top of one by the others. -/
theorem isStableSort_cons (h : IsStableSort (fun a b => compareAll keys a b) given between)
    (hk : IsStableSort (fun a b => k.compare a b) between sorted) :
    IsStableSort (fun a b => compareAll (k :: keys) a b) given sorted where
  perm := hk.perm.trans h.perm
  ordered := by
    have := k.transCmp_compare (ρ := ρ)
    refine List.pairwise_iff_forall_sublist.2 fun {a b} hsub => ?_
    have hfirst := List.pairwise_iff_forall_sublist.1 hk.ordered hsub
    rw [compareAll]
    cases hcompare : k.compare a b with
    | lt => exact fun hgt => by cases hgt
    | gt => exact absurd hcompare hfirst
    | eq => exact List.pairwise_iff_forall_sublist.1 h.ordered (hk.sublist_given hsub hcompare)
  stable a := by
    have hboth (b : ρ) : (compareAll (k :: keys) a b == .eq) =
        ((compareAll keys a b == .eq) && (k.compare a b == .eq)) := by
      rw [compareAll, Bool.eq_iff_iff, Bool.and_eq_true, beq_iff_eq, beq_iff_eq, beq_iff_eq,
        Ordering.then_eq_eq, and_comm]
    calc sorted.filter (compareAll (k :: keys) a · == .eq)
        = (sorted.filter (k.compare a · == .eq)).filter (compareAll keys a · == .eq) := by
          simp only [hboth, List.filter_filter]
      _ = (between.filter (compareAll keys a · == .eq)).filter (k.compare a · == .eq) := by
          rw [hk.stable, List.filter_comm]
      _ = given.filter (compareAll (k :: keys) a · == .eq) := by
          rw [h.stable]
          simp only [hboth, List.filter_filter, Bool.and_comm]

theorem sortedInTurn_sort (keys : List SortKey) (given : List ρ) :
    SortedInTurn keys given (sort keys given) := by
  induction keys with
  | nil =>
      have hsort : sort [] given = given :=
        List.mergeSort_of_pairwise (List.pairwise_of_forall fun _ _ => rfl)
      rw [hsort]
      exact .nil given
  | cons k keys ih =>
      have hk : IsStableSort (fun a b => k.compare a b) (sort keys given)
          (sort [k] (sort keys given)) := by
        simpa only [compareAll_singleton] using isStableSort_sort [k] (sort keys given)
      have hall := isStableSort_cons (isStableSort_sort keys given) hk
      have := transCmp_compareAll (ρ := ρ) (k :: keys)
      rw [(isStableSort_sort (k :: keys) given).unique hall]
      exact .cons ih hk

/-- Sorts by single keys, from the last to the first, come to a stable sort by all of them. -/
theorem SortedInTurn.isStableSort (h : SortedInTurn keys given sorted) :
    IsStableSort (fun a b => compareAll keys a b) given sorted := by
  induction h with
  | nil given =>
      exact ⟨.refl given, List.pairwise_of_forall fun _ _ h => (by cases h), fun _ => rfl⟩
  | cons _ sorts ih => exact isStableSort_cons ih sorts

theorem sortedInTurn_iff : SortedInTurn keys given sorted ↔ sorted = sort keys given := by
  have := transCmp_compareAll (ρ := ρ) keys
  constructor
  · exact fun h => h.isStableSort.unique (isStableSort_sort keys given)
  · rintro rfl
    exact sortedInTurn_sort keys given

section Repetition

variable {before behind : List SortKey} {a b : ρ}

theorem compareAll_append (before behind : List SortKey) (a b : ρ) :
    compareAll (before ++ behind) a b = (compareAll before a b).then (compareAll behind a b) := by
  induction before with
  | nil => rfl
  | cons k before ih => rw [List.cons_append, compareAll, compareAll, ih, Ordering.then_assoc]

/-- Records that some keys do not tell apart are not told apart by any of these. -/
theorem compare_eq_of_compareAll_eq (h : compareAll before a b = .eq) (hk : k ∈ before) :
    k.compare a b = .eq := by
  induction before with
  | nil => cases hk
  | cons first before ih =>
      rw [compareAll, Ordering.then_eq_eq] at h
      rcases List.mem_cons.1 hk with rfl | hk
      · exact h.1
      · exact ih h.2 hk

/-- Whether a key tells two records apart does not depend on its direction. -/
theorem compare_eq_iff {earlier : SortKey} (h : earlier.column = k.column) :
    k.compare a b = .eq ↔ earlier.compare a b = .eq := by
  have happly (d : Direction) (o : Ordering) : d.apply o = .eq ↔ o = .eq := by
    cases d with
    | ascending => exact Iff.rfl
    | descending => exact Ordering.swap_eq_eq
  rw [compare, compare, happly, happly, h]

theorem compareAll_of_repeated (h : ∃ earlier ∈ before, earlier.column = k.column) (a b : ρ) :
    compareAll (before ++ k :: behind) a b = compareAll (before ++ behind) a b := by
  obtain ⟨earlier, hmem, hcolumn⟩ := h
  rw [compareAll_append, compareAll_append, compareAll]
  cases hbefore : compareAll before a b with
  | lt | gt => rfl
  | eq =>
      rw [(compare_eq_iff hcolumn).2 (compare_eq_of_compareAll_eq hbefore hmem)]
      rfl

end Repetition

end SortKey

namespace Query

open SortKey

/-- A query without pages returns what comes from filtering first, and then sorting stably by each
of its keys alone, from the last to the first. A key for a column that an earlier key is for may be
left out, whatever the directions of the two. -/
theorem sortedInTurn_iff_apply {ρ : Type} [Record ρ] (f : Filter) (number : Nat)
    (records : List ρ) :
    (∀ keys sorted, SortedInTurn keys (f.select records) sorted ↔
      sorted = apply ⟨f, keys, none, number⟩ records) ∧
    ∀ before k behind size, (∃ earlier ∈ before, earlier.column = k.column) →
      apply ⟨f, before ++ k :: behind, size, number⟩ records =
        apply ⟨f, before ++ behind, size, number⟩ records := by
  refine ⟨fun keys sorted => sortedInTurn_iff, fun before k behind size h => ?_⟩
  have hsort : sort (before ++ k :: behind) (f.select records) =
      sort (before ++ behind) (f.select records) := by
    unfold sort
    simp only [compareAll_of_repeated h]
  rw [apply, apply, hsort]
  rfl

/-- A repeated column in another direction, over equal numbers of two variants, a text, and a field
that is missing. -/
theorem sortedInTurn_iff_apply_repeated :
    let n : Column := ⟨"n", .decimal, [], false, false⟩
    let m : Column := ⟨"m", .string, [], false, true⟩
    let records := [FieldMap.mk [("n", .integer 1), ("m", .string "b")],
      FieldMap.mk [("n", .decimal ⟨false, 10, 1, by decide, by decide⟩), ("m", .string "B")],
      FieldMap.mk [("m", .string "a")], FieldMap.mk [("n", .string "1"), ("m", .string "c")]]
    SortedInTurn [⟨n, .descending⟩, ⟨m, .ascending⟩] (Filter.select {} records)
        (apply ⟨{}, [⟨n, .descending⟩, ⟨m, .ascending⟩], none, 0⟩ records) ∧
      apply ⟨{}, [⟨n, .descending⟩, ⟨m, .ascending⟩, ⟨n, .ascending⟩], some 2, 1⟩ records =
        apply ⟨{}, [⟨n, .descending⟩, ⟨m, .ascending⟩], some 2, 1⟩ records := by
  intro n m records
  refine ⟨((sortedInTurn_iff_apply {} 0 records).1 _ _).2 rfl, ?_⟩
  exact (sortedInTurn_iff_apply {} 1 records).2 [⟨n, .descending⟩, ⟨m, .ascending⟩]
    ⟨n, .ascending⟩ [] (some 2) ⟨⟨n, .descending⟩, List.mem_cons_self, rfl⟩

end Query

end RecordQuery
