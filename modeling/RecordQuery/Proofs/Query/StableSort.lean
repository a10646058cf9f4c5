import RecordQuery.Query
import RecordQuery.Proofs.Clause.Leaves
import RecordQuery.Proofs.Order.Preorder

/-!
# A query sorts the matching records stably

What a query without pages returns is described without an algorithm. A record of a list is told
from its duplicates by its place, so the statements are about records with their places: a result is
a stable selection if it holds the records that pass the filter, each in its place and once, by the
keys and, where no key tells two apart, by place (`Query.IsStableSelection`). There is exactly one
such list, and a query finds it (`Query.isStableSelection_iff_apply`).

That sorting is stable is a statement about the records that no key tells from a given one: sorting
leaves these in their order (`SortKey.filter_sort_of_eq`). Uniqueness comes from the order of
records with their places, in which no two come out equal.
-/

namespace RecordQuery

namespace SortKey

variable {ρ : Type} [Record ρ] {keys : List SortKey}

theorem compareAll_attached {α : Type} (keys : List SortKey) (a b : ρ × α) :
    compareAll keys a b = compareAll keys a.1 b.1 := by
  induction keys with
  | nil => rfl
  | cons k keys ih =>
      rw [compareAll, compareAll, ih]
      rfl

theorem compareAll_swap (keys : List SortKey) (a b : ρ) :
    compareAll keys b a = (compareAll keys a b).swap :=
  (transCmp_compareAll keys).eq_swap

theorem notAfter_trans (keys : List SortKey) (a b c : ρ) (hab : (compareAll keys a b != .gt) = true)
    (hbc : (compareAll keys b c != .gt) = true) : (compareAll keys a c != .gt) = true := by
  rw [bne_iff_ne] at hab hbc ⊢
  exact (IsTotalPreorder.of_transCmp (transCmp_compareAll keys)).trans a b c hab hbc

theorem notAfter_total (keys : List SortKey) (a b : ρ) :
    (compareAll keys a b != .gt || compareAll keys b a != .gt) = true := by
  rw [Bool.or_eq_true, bne_iff_ne, bne_iff_ne]
  exact (IsTotalPreorder.of_transCmp (transCmp_compareAll keys)).total a b

theorem sort_perm (keys : List SortKey) (records : List ρ) : (sort keys records).Perm records :=
  List.mergeSort_perm records _

theorem pairwise_sort (keys : List SortKey) (records : List ρ) :
    (sort keys records).Pairwise fun a b => compareAll keys a b ≠ .gt := by
  have h := List.pairwise_mergeSort (notAfter_trans keys) (notAfter_total keys) records
  exact h.imp fun hab => bne_iff_ne.1 hab

/-- Sorting leaves the records that no key tells from a given one in their order. -/
theorem filter_sort_of_eq (keys : List SortKey) (a : ρ) (records : List ρ) :
    (sort keys records).filter (compareAll keys a · == .eq) =
      records.filter (compareAll keys a · == .eq) := by
  have alike : (records.filter (compareAll keys a · == .eq)).Pairwise fun b c =>
      (compareAll keys b c != .gt) = true := by
    refine List.pairwise_of_forall_mem_list fun b hb c hc => notAfter_trans keys b a c ?_ ?_
    · have hab := beq_iff_eq.1 (List.mem_filter.1 hb).2
      rw [compareAll_swap, hab]
      rfl
    · have hac := beq_iff_eq.1 (List.mem_filter.1 hc).2
      rw [hac]
      rfl
  have hsub : (records.filter (compareAll keys a · == .eq)).Sublist (sort keys records) :=
    List.sublist_mergeSort (notAfter_trans keys) (notAfter_total keys) alike List.filter_sublist
  have hclass := hsub.filter (compareAll keys a · == .eq)
  rw [List.filter_filter] at hclass
  simp only [Bool.and_self] at hclass
  exact (hclass.eq_of_length ((sort_perm keys records).symm.filter _).length_eq).symm

theorem map_fst_sort {α : Type} (keys : List SortKey) (records : List (ρ × α)) :
    (sort keys records).map Prod.fst = sort keys (records.map Prod.fst) := by
  refine List.map_mergeSort fun a _ b _ => ?_
  rw [compareAll_attached]

end SortKey

namespace Filter

variable {ρ : Type} [Record ρ]

theorem holds_attached {α : Type} (f : Filter) (a : ρ × α) : f.holds a = f.holds a.1 :=
  holds_congr fun _ _ => rfl

theorem holds_empty (record : ρ) : Filter.holds {} record = true := by
  rw [holds, Clause.sequenceHolds]

end Filter

namespace Query

open SortKey

variable {ρ : Type} [Record ρ] {keys : List SortKey} {f : Filter} {records : List ρ}

/-- One record with its place comes before another: by the keys, or if no key tells them apart, by
place. -/
def Precedes (keys : List SortKey) (a b : ρ × Nat) : Prop :=
  compareAll keys a.1 b.1 ≠ .gt ∧ (compareAll keys a.1 b.1 = .eq → a.2 < b.2)

theorem Precedes.antisymm {a b : ρ × Nat} (hab : Precedes keys a b) (hba : Precedes keys b a) :
    a = b := by
  rcases hab with ⟨hab, hplace⟩
  rcases hba with ⟨hba, hplace'⟩
  rw [compareAll_swap keys a.1 b.1] at hba hplace'
  cases hcompare : compareAll keys a.1 b.1 with
  | gt => exact absurd hcompare hab
  | lt => exact absurd (congrArg Ordering.swap hcompare) hba
  | eq =>
      have hlt := hplace hcompare
      have hgt := hplace' (congrArg Ordering.swap hcompare)
      omega

/-- The records of a list that pass the filter, with their places in it, sorted by the keys.
Records that no key tells apart keep their order. -/
structure IsStableSelection (f : Filter) (keys : List SortKey) (records : List ρ)
    (selected : List (ρ × Nat)) : Prop where
  nodup : selected.Nodup
  mem_iff : ∀ record place, (record, place) ∈ selected ↔
    records[place]? = some record ∧ f.holds record = true
  ordered : selected.Pairwise (Precedes keys)

theorem IsStableSelection.unique {s t : List (ρ × Nat)} (hs : IsStableSelection f keys records s)
    (ht : IsStableSelection f keys records t) : s = t := by
  have hperm : s.Perm t := by
    refine (List.perm_ext_iff_of_nodup hs.nodup ht.nodup).2 fun entry => ?_
    rw [hs.mem_iff, ht.mem_iff]
  exact hperm.eq_of_pairwise (fun a b _ _ hab hba => hab.antisymm hba) hs.ordered ht.ordered

theorem IsStableSelection.filter {s : List (ρ × Nat)} (hs : IsStableSelection {} keys records s)
    (f : Filter) : IsStableSelection f keys records (s.filter fun entry => f.holds entry.1) where
  nodup := hs.nodup.filter _
  mem_iff record place := by
    rw [List.mem_filter, hs.mem_iff, Filter.holds_empty, and_iff_left rfl]
  ordered := hs.ordered.filter _

theorem pairwise_zipIdx {α : Type} (records : List α) :
    records.zipIdx.Pairwise fun a b => a.2 < b.2 := by
  have h : (List.range' 0 records.length).Pairwise (· < ·) := List.pairwise_lt_range'
  rwa [← List.zipIdx_map_snd 0 records, List.pairwise_map] at h

theorem isStableSelection_sort (f : Filter) (keys : List SortKey) (records : List ρ) :
    IsStableSelection f keys records (sort keys (f.select records.zipIdx)) where
  nodup := by
    have hplaces : records.zipIdx.Nodup :=
      (pairwise_zipIdx records).imp fun hab heq => absurd (congrArg Prod.snd heq) hab.ne
    exact (sort_perm keys _).nodup_iff.2 (hplaces.filter _)
  mem_iff record place := by
    rw [(sort_perm keys _).mem_iff, Filter.select, List.mem_filter,
      List.mem_zipIdx_iff_getElem?, Filter.holds_attached]
  ordered := by
    have hplaces := (pairwise_zipIdx records).sublist (List.filter_sublist (p := f.holds))
    refine List.pairwise_iff_forall_sublist.2 fun {a b} hsub => ⟨?_, fun hsame => ?_⟩
    · have hle := List.pairwise_iff_forall_sublist.1
        (pairwise_sort keys (f.select records.zipIdx)) hsub
      rwa [compareAll_attached] at hle
    · have hself : compareAll keys a a = .eq := by
        have hswap := compareAll_swap keys a a
        cases hcompare : compareAll keys a a <;> simp_all
      have hclass := hsub.filter (compareAll keys a · == .eq)
      rw [filter_sort_of_eq, List.filter_cons, List.filter_cons, compareAll_attached keys a b,
        hsame, hself] at hclass
      exact List.pairwise_iff_forall_sublist.1 hplaces (hclass.trans List.filter_sublist)

/-- A query without pages returns the stable selection of its filter and its keys: this is the one
list that has the records passing the filter, each in its place and once, sorted by the keys and
otherwise by place. Leaving out the places leaves what the query returns for the records alone, and
filtering may as well come after sorting. -/
theorem isStableSelection_iff_apply (f : Filter) (keys : List SortKey) (number : Nat)
    (records : List ρ) :
    (∀ selected, IsStableSelection f keys records selected ↔
      selected = apply ⟨f, keys, none, number⟩ records.zipIdx) ∧
    (apply ⟨f, keys, none, number⟩ records.zipIdx).map Prod.fst =
      apply ⟨f, keys, none, number⟩ records ∧
    apply ⟨f, keys, none, number⟩ records.zipIdx =
      (apply ⟨{}, keys, none, number⟩ records.zipIdx).filter (fun entry => f.holds entry.1) ∧
    apply ⟨f, keys, none, number⟩ records =
      (apply ⟨{}, keys, none, number⟩ records).filter f.holds := by
  have places (g : Filter) : (apply ⟨g, keys, none, number⟩ records.zipIdx).map Prod.fst =
      apply ⟨g, keys, none, number⟩ records := by
    have hselect : (g.select records.zipIdx).map Prod.fst = g.select records := by
      have hholds : g.holds ∘ Prod.fst = (g.holds : ρ × Nat → Bool) :=
        funext fun entry => (g.holds_attached entry).symm
      rw [Filter.select, Filter.select, ← hholds, ← List.filter_map, List.zipIdx_map_fst]
    exact (map_fst_sort keys _).trans (congrArg (sort keys) hselect)
  have hfilter : apply ⟨f, keys, none, number⟩ records.zipIdx =
      (apply ⟨{}, keys, none, number⟩ records.zipIdx).filter fun entry => f.holds entry.1 :=
    (isStableSelection_sort f keys records).unique
      ((isStableSelection_sort {} keys records).filter f)
  refine ⟨fun selected => ⟨fun h => ?_, fun h => ?_⟩, places f, hfilter, ?_⟩
  · exact h.unique (isStableSelection_sort f keys records)
  · rw [h]
    exact isStableSelection_sort f keys records
  · rw [← places f, ← places {}, hfilter, List.filter_map]
    rfl

end Query

end RecordQuery
