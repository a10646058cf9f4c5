import Mathlib.Algebra.Order.Floor.Div
import RecordQuery.Proofs.Query.StableSort

/-!
# Pages tile the result

The page with a number is the piece of the whole result that begins behind as many records as fit on
the pages ahead of it. The count of these records may be larger than a machine word holds, and then
the largest word stands in its place. That makes no difference, since so many records are never
there (`drop_min_of_length_le`). So the pages put one behind the other are the whole result, and
from some page on they are empty (`Query.pages_tile`).
-/

namespace RecordQuery

section Pieces

variable {α : Type} {l : List α}

theorem drop_min_of_length_le {bound : Nat} (h : l.length ≤ bound) (n : Nat) :
    l.drop (min n bound) = l.drop n := by
  rcases Nat.le_total n bound with hle | hle
  · rw [Nat.min_eq_left hle]
  · rw [Nat.min_eq_right hle, List.drop_of_length_le h, List.drop_of_length_le (h.trans hle)]

theorem flatMap_range_drop_take (l : List α) (size count : Nat) :
    ((List.range count).flatMap fun number => (l.drop (size * number)).take size) =
      l.take (size * count) := by
  induction count with
  | zero => simp
  | succ count ih =>
      rw [List.range_succ, List.flatMap_append, ih, Nat.mul_succ, List.take_add,
        List.flatMap_singleton]

end Pieces

namespace Query

variable {ρ : Type} [Record ρ] {q : Query} {records : List ρ}

def withoutPages (q : Query) : Query :=
  { q with pageSize := none }

theorem length_withoutPages_le (q : Query) (records : List ρ) :
    (q.withoutPages.apply records).length ≤ records.length := by
  change (SortKey.sort q.order (q.filter.select records)).length ≤ records.length
  rw [(SortKey.sort_perm _ _).length_eq]
  exact List.length_filter_le _ _

theorem apply_withPage (h : records.length ≤ maxSkip) (size number : Nat) :
    (q.withPage size number).apply records =
      ((q.withoutPages.apply records).drop (size * number)).take size := by
  have hlength := (q.length_withoutPages_le records).trans h
  rw [← drop_min_of_length_le hlength]
  rfl

/-- The page of some size with some number has the records of the whole result from the product of
these on, as many as the size and no more than there are. The first pages, put one behind the other,
are the beginning of the result that they have room for. So all pages of a positive size together
are the result, and those behind the last record are empty. -/
theorem pages_tile (q : Query) (records : List ρ) (h : records.length < 2 ^ 64) :
    (∀ size number i, ((q.withPage size number).apply records)[i]? =
      if i < size then (q.withoutPages.apply records)[size * number + i]? else none) ∧
    (∀ size count, ((List.range count).flatMap fun number =>
        (q.withPage size number).apply records) =
      (q.withoutPages.apply records).take (size * count)) ∧
    ∀ size, 0 < size →
      (∀ count, (q.withoutPages.apply records).length ⌈/⌉ size ≤ count →
        ((List.range count).flatMap fun number => (q.withPage size number).apply records) =
          q.withoutPages.apply records) ∧
      ∀ number, (q.withoutPages.apply records).length ⌈/⌉ size ≤ number →
        (q.withPage size number).apply records = [] := by
  have hpage := apply_withPage (q := q) (Nat.le_of_lt_succ h)
  have hfirst (size count : Nat) : ((List.range count).flatMap fun number =>
      (q.withPage size number).apply records) =
        (q.withoutPages.apply records).take (size * count) := by
    simp only [hpage]
    exact flatMap_range_drop_take _ size count
  refine ⟨fun size number i => ?_, hfirst, fun size hsize => ⟨fun count hcount => ?_,
    fun number hnumber => ?_⟩⟩
  · rw [hpage, List.getElem?_take, List.getElem?_drop]
  · rw [hfirst, List.take_of_length_le ((ceilDiv_le_iff_le_mul hsize).1 hcount)]
  · rw [hpage, List.drop_of_length_le ((ceilDiv_le_iff_le_mul hsize).1 hnumber), List.take_nil]

/-- Three records on pages of two, and a page whose beginning wraps around to the third record in a
machine word. -/
theorem pages_tile_wrapped :
    let q : Query := { order := [⟨⟨"n", .integer, [], false, false⟩, .descending⟩] }
    let records := [FieldMap.mk [("n", .integer 4)], FieldMap.mk [("n", .integer 6)],
      FieldMap.mk [("n", .integer 5)]]
    ((List.range 2).flatMap fun number => (q.withPage 2 number).apply records) =
        q.withoutPages.apply records ∧
      3 * 6148914691236517206 % 2 ^ 64 = 2 ∧
      (q.withPage 3 6148914691236517206).apply records = [] := by
  intro q records
  have hlength : records.length < 2 ^ 64 := by decide
  have hcount := q.length_withoutPages_le records
  have hceil {size number : Nat} (hsize : 0 < size) (h : 3 ≤ size * number) :
      (q.withoutPages.apply records).length ⌈/⌉ size ≤ number :=
    (ceilDiv_le_iff_le_mul hsize).2 (hcount.trans h)
  refine ⟨?_, by decide, ?_⟩
  · exact ((pages_tile q records hlength).2.2 2 (by decide)).1 2 (hceil (by decide) (by decide))
  · exact ((pages_tile q records hlength).2.2 3 (by decide)).2 _ (hceil (by decide) (by decide))

end Query

end RecordQuery
