import Mathlib
import RecordQuery.Order.Compare

/-!
# Sorting follows a total preorder

Whatever values and records are compared, the comparison is total, turns around with its arguments,
and is transitive (`SortKey.isTotalPreorder_compareAll`), so a sort has an order to follow.

A value is placed by its kind, and among the values of that kind by the number, text, truth value or
time that it is. `Value.sortCompare` compares these places one after the other
(`Value.sortCompare_eq`), and so integers and decimals, which share a kind, are ordered as the
rational numbers they stand for. The laws of a lexicographic comparison do the rest: from values
they pass to values that may be absent, from those to the records that hold them, and from one key
to a list of keys.
-/

namespace RecordQuery

open Number (Decimal)
open Std

/-- A comparison puts all things into an order, in which different things may have one place. -/
structure IsTotalPreorder {α : Type} (cmp : α → α → Ordering) : Prop where
  total : ∀ a b, cmp a b ≠ .gt ∨ cmp b a ≠ .gt
  reverse : ∀ a b, cmp b a = (cmp a b).swap
  trans : ∀ a b c, cmp a b ≠ .gt → cmp b c ≠ .gt → cmp a c ≠ .gt
  strict : ∀ a b c, cmp a b ≠ .gt → cmp b c ≠ .gt → cmp a b = .lt ∨ cmp b c = .lt → cmp a c = .lt

theorem IsTotalPreorder.of_transCmp {α : Type} {cmp : α → α → Ordering} (h : TransCmp cmp) :
    IsTotalPreorder cmp where
  total a b := by
    have hswap : cmp b a = (cmp a b).swap := OrientedCmp.eq_swap
    rw [hswap]
    cases cmp a b <;> decide
  reverse a b := OrientedCmp.eq_swap
  trans a b c hab hbc := by
    have hle : (cmp a c).isLE = true :=
      TransCmp.isLE_trans (Ordering.isLE_iff_ne_gt.2 hab) (Ordering.isLE_iff_ne_gt.2 hbc)
    exact Ordering.isLE_iff_ne_gt.1 hle
  strict a b c hab hbc := by
    rintro (hlt | hlt)
    · exact TransCmp.lt_of_lt_of_isLE hlt (Ordering.isLE_iff_ne_gt.2 hbc)
    · exact TransCmp.lt_of_isLE_of_lt (Ordering.isLE_iff_ne_gt.2 hab) hlt

theorem transCmp_comap {α β : Type} {cmp : α → α → Ordering} (h : TransCmp cmp) (f : β → α) :
    TransCmp fun a b => cmp (f a) (f b) where
  eq_swap := OrientedCmp.eq_swap
  isLE_trans := TransCmp.isLE_trans

namespace Number.Decimal

def toRat (d : Decimal) : ℚ :=
  d.coefficient / powerOfTen d.scale

theorem powerOfTen_pos (n : Nat) : (0 : ℚ) < powerOfTen n :=
  Nat.cast_pos.2 (Nat.pow_pos (by decide))

theorem compare_intCast (m n : ℤ) : Ord.compare (m : ℚ) n = Ord.compare m n := by
  rw [← cmp_eq_compare, ← cmp_eq_compare]
  exact Int.cast_strictMono.cmp_map_eq m n

theorem compare_eq (a b : Decimal) : a.compare b = Ord.compare a.toRat b.toRat := by
  have ha := powerOfTen_pos a.scale
  have hb := powerOfTen_pos b.scale
  have hleft : a.toRat * (powerOfTen a.scale * powerOfTen b.scale) = a.numeratorOver b.scale := by
    rw [toRat, numeratorOver]
    push_cast
    field_simp
  have hright : b.toRat * (powerOfTen a.scale * powerOfTen b.scale) = b.numeratorOver a.scale := by
    rw [toRat, numeratorOver]
    push_cast
    field_simp
  rw [compare, ← cmp_eq_compare a.toRat, ← cmp_mul_pos_right (mul_pos ha hb), hleft,
    hright, cmp_eq_compare, compare_intCast]

@[simp] theorem toRat_ofInt64 (n : Int64) : (ofInt64 n).toRat = n.toInt := by
  simp [toRat, powerOfTen]

end Number.Decimal

namespace Timestamp

theorem compare_eq (t u : Timestamp) : t.compare u = Ord.compare t u := rfl

instance : TransOrd Timestamp :=
  inferInstanceAs (TransCmp (compareLex (compareOn seconds) (compareOn nanos)))

end Timestamp

namespace Value

def number (v : Value) : ℚ :=
  (v.decimal?.map Decimal.toRat).getD 0

def text (v : Value) : String :=
  v.string?.getD ""

def truth : Value → Bool
  | .boolean b => b
  | _ => false

def time : Value → Timestamp
  | .date t => t
  | _ => ⟨0, 0⟩

def comparePlaces : Value → Value → Ordering :=
  compareLex (compareOn rank)
    (compareLex (compareOn number)
      (compareLex (compareOn text) (compareLex (compareOn truth) (compareOn time))))

instance : TransCmp comparePlaces :=
  inferInstanceAs (TransCmp (compareLex _ _))

theorem compare?_of_rank_ne {a b : Value} (h : a.rank ≠ b.rank) : a.compare? b = none := by
  cases a <;> cases b <;> simp_all [rank, compare?]

theorem comparePlaces_of_rank_ne {a b : Value} (h : a.rank ≠ b.rank) :
    comparePlaces a b = Ord.compare a.rank b.rank := by
  rw [comparePlaces, compareLex, compareOn]
  rcases Nat.lt_or_gt_of_ne h with hlt | hgt
  · rw [Nat.compare_eq_lt.2 hlt]
    rfl
  · rw [Nat.compare_eq_gt.2 hgt]
    rfl

theorem sortCompare_eq (a b : Value) : a.sortCompare b = comparePlaces a b := by
  by_cases hrank : a.rank = b.rank
  · -- within a kind, all parts of the places are the same but the one that the kind is about
    cases a <;> cases b <;>
      simp_all [sortCompare, compare?, comparePlaces, compareLex, compareOn, rank, number, text,
        truth, time, decimal?, string?, Decimal.compare_eq, Decimal.compare_intCast,
        Timestamp.compare_eq]
  · rw [sortCompare, compare?_of_rank_ne hrank, comparePlaces_of_rank_ne hrank]
    rfl

instance : TransCmp sortCompare where
  eq_swap := by
    intro a b
    rw [sortCompare_eq, sortCompare_eq]
    exact OrientedCmp.eq_swap
  isLE_trans := by
    intro a b c
    rw [sortCompare_eq, sortCompare_eq, sortCompare_eq]
    exact TransCmp.isLE_trans

end Value

instance : OrientedCmp compareOptional where
  eq_swap := by
    intro a b
    cases a with
    | none => cases b <;> rfl
    | some v =>
        cases b with
        | none => rfl
        | some w =>
            have hvalues : v.sortCompare w = (w.sortCompare v).swap := OrientedCmp.eq_swap
            exact hvalues

instance : TransCmp compareOptional where
  isLE_trans := by
    intro a b c hab hbc
    cases a with
    | none => cases c <;> rfl
    | some u =>
        cases b with
        | none => cases hab
        | some v =>
            cases c with
            | none => cases hbc
            | some w =>
                have huw : (u.sortCompare w).isLE = true := TransCmp.isLE_trans hab hbc
                exact huw

namespace Direction

def reverse : Direction → Direction
  | .ascending => .descending
  | .descending => .ascending

theorem apply_reverse (d : Direction) (o : Ordering) : d.reverse.apply o = (d.apply o).swap := by
  cases d with
  | ascending => rfl
  | descending => rw [reverse, apply, apply, Ordering.swap_swap]

end Direction

namespace SortKey

variable {ρ : Type} [Record ρ]

def reverse (k : SortKey) : SortKey :=
  { k with direction := k.direction.reverse }

theorem transCmp_compare (k : SortKey) : TransCmp fun a b : ρ => k.compare a b := by
  have hseen : TransCmp fun a b : ρ => compareOptional (k.column.sortValue? a)
      (k.column.sortValue? b) :=
    transCmp_comap inferInstance _
  rcases k with ⟨column, direction⟩
  cases direction with
  | ascending => exact hseen
  | descending =>
      have hopposite : TransCmp fun a b : ρ => compareOptional (column.sortValue? b)
          (column.sortValue? a) :=
        TransCmp.opposite
      have hturned (a b : ρ) : compare ⟨column, .descending⟩ a b =
          compareOptional (column.sortValue? b) (column.sortValue? a) :=
        OrientedCmp.eq_swap.symm
      simpa only [hturned] using hopposite

theorem compareAll_singleton (k : SortKey) (a b : ρ) : compareAll [k] a b = k.compare a b :=
  Ordering.then_eq

theorem transCmp_compareAll (keys : List SortKey) :
    TransCmp fun a b : ρ => compareAll keys a b := by
  induction keys with
  | nil => exact { eq_swap := rfl, isLE_trans := fun _ _ => rfl }
  | cons k keys ih =>
      have hfirst : TransCmp fun a b : ρ => k.compare a b := k.transCmp_compare
      exact inferInstanceAs (TransCmp (compareLex (fun a b : ρ => k.compare a b)
        fun a b => compareAll keys a b))

theorem compare_reverse (k : SortKey) (a b : ρ) : k.reverse.compare a b = (k.compare a b).swap :=
  k.direction.apply_reverse _

theorem compareAll_reverse (keys : List SortKey) (a b : ρ) :
    compareAll (keys.map reverse) a b = (compareAll keys a b).swap := by
  induction keys with
  | nil => rfl
  | cons k keys ih =>
      rw [List.map_cons, compareAll, compareAll, compare_reverse, ih, Ordering.swap_then]

/-- Values are sorted by a total preorder, and so are records by any keys: whether they lack fields,
hold null, or hold values of any kinds. The keys with all directions turned sort the other way
round. -/
theorem isTotalPreorder_compareAll :
    IsTotalPreorder Value.sortCompare ∧
      ∀ {ρ : Type} [Record ρ] (keys : List SortKey),
        IsTotalPreorder (fun a b : ρ => compareAll keys a b) ∧
          ∀ a b : ρ, compareAll (keys.map reverse) a b = (compareAll keys a b).swap := by
  constructor
  · exact .of_transCmp inferInstance
  · intro ρ _ keys
    exact ⟨.of_transCmp (transCmp_compareAll keys), compareAll_reverse keys⟩

end SortKey

end RecordQuery
