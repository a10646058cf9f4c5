import Mathlib
import RecordQuery.Proofs.Order.Preorder

/-!
# The natural order of values

Numbers, texts, truth values and points in time each have an order: that of the rational numbers,
that of code points, `false` ahead of `true`, and that in time. `Value.Precedes` and
`Value.Coincides` say how two values stand in the order of their kind, whatever their variants and
scales, and `Value.compare?` finds out which of the two holds, in which direction
(`Value.compare?_eq_lt_iff` and its neighbours). It has no answer for values that are not of one
kind, or of a kind without an order.

Values that coincide compare alike with everything (`Value.compare?_congr_right`), since `compare?`
agrees with the total preorder by which values are sorted.
-/

namespace RecordQuery

open Number (Decimal)
open Std (OrientedCmp TransCmp)

/-- A text comes before another one: it is a beginning of the other, or it has the smaller code
point where the two first differ. -/
def Text.Before (s t : String) : Prop :=
  List.Lex (fun c d : Char => c.toNat < d.toNat) s.toList t.toList

/-- A point in time comes before another one: in an earlier second, or earlier in the same one. -/
def Timestamp.Before (t u : Timestamp) : Prop :=
  t.seconds < u.seconds ∨ t.seconds = u.seconds ∧ t.nanos < u.nanos

namespace Value

def number? : Value → Option ℚ
  | .integer n => some n.toInt
  | .decimal d => some d.toRat
  | _ => none

theorem ne_null_of_number {v : Value} {q : ℚ} (h : v.number? = some q) : v ≠ .null := by
  rintro rfl
  cases h

/-- The values are of one kind, and the kind has an order. -/
inductive Comparable : Value → Value → Prop where
  | number {v w : Value} {q r : ℚ} (hv : v.number? = some q) (hw : w.number? = some r) :
      Comparable v w
  | text (s t : String) : Comparable (.string s) (.string t)
  | truth (a b : Bool) : Comparable (.boolean a) (.boolean b)
  | time (t u : Timestamp) : Comparable (.date t) (.date u)

inductive Precedes : Value → Value → Prop where
  | number {v w : Value} {q r : ℚ} (hv : v.number? = some q) (hw : w.number? = some r)
      (h : q < r) : Precedes v w
  | text {s t : String} (h : Text.Before s t) : Precedes (.string s) (.string t)
  | truth : Precedes (.boolean false) (.boolean true)
  | time {t u : Timestamp} (h : t.Before u) : Precedes (.date t) (.date u)

inductive Coincides : Value → Value → Prop where
  | number {v w : Value} {q : ℚ} (hv : v.number? = some q) (hw : w.number? = some q) :
      Coincides v w
  | text (s : String) : Coincides (.string s) (.string s)
  | truth (b : Bool) : Coincides (.boolean b) (.boolean b)
  | time (t : Timestamp) : Coincides (.date t) (.date t)

section Kinds

theorem compare_string_eq_lt_iff {s t : String} : compare s t = .lt ↔ Text.Before s t := by
  rw [compare_lt_iff_lt, String.lt_iff_toList_lt]
  exact Iff.rfl

theorem compare_boolean_eq_lt_iff {a b : Bool} : compare a b = .lt ↔ a = false ∧ b = true := by
  cases a <;> cases b <;> decide

theorem compare_date_eq_lt_iff {t u : Timestamp} : t.compare u = .lt ↔ t.Before u := by
  rw [Timestamp.compare, Ordering.then_eq_lt, compare_lt_iff_lt, compare_eq_iff_eq,
    compare_lt_iff_lt]
  exact Iff.rfl

theorem compare_date_eq_eq_iff {t u : Timestamp} : t.compare u = .eq ↔ t = u := by
  rw [Timestamp.compare, Ordering.then_eq_eq, compare_eq_iff_eq, compare_eq_iff_eq]
  cases t
  cases u
  simp

variable {v w : Value} {q r : ℚ}

/-- Numbers are compared as rational numbers, integers and decimals alike. -/
theorem compare?_of_number (hv : v.number? = some q) (hw : w.number? = some r) :
    v.compare? w = some (compare q r) := by
  cases v <;> cases w <;>
    simp_all only [number?, compare?, Decimal.compare_eq, Decimal.toRat_ofInt64, reduceCtorEq,
      Option.some.injEq]
  subst hv hw
  exact (Decimal.compare_intCast _ _).symm

end Kinds

section Outcomes

variable {v w : Value}

theorem compare?_ne_none_iff : v.compare? w ≠ none ↔ v.Comparable w := by
  constructor
  · fun_cases compare? v w with
    | case1 a b | case2 a b | case3 a b | case4 a b =>
        intro _
        exact .number rfl rfl
    | case5 s t =>
        intro _
        exact .text s t
    | case6 a b =>
        intro _
        exact .truth a b
    | case7 t u =>
        intro _
        exact .time t u
    | case8 =>
        intro h
        exact absurd rfl h
  · rintro (⟨hv, hw⟩ | _ | _ | _)
    · rw [compare?_of_number hv hw]
      exact Option.some_ne_none _
    all_goals exact Option.some_ne_none _

/-- Values of different kinds, and values without an order, do not compare. -/
theorem compare?_of_not_comparable (h : ¬v.Comparable w) : v.compare? w = none := by
  by_contra hne
  exact h (compare?_ne_none_iff.1 hne)

theorem compare?_of_comparable (h : v.Comparable w) : v.compare? w = some (v.sortCompare w) := by
  obtain ⟨o, ho⟩ := Option.ne_none_iff_exists'.1 (compare?_ne_none_iff.2 h)
  rw [sortCompare, ho, Option.getD_some]

theorem comparable_of_compare? {o : Ordering} (h : v.compare? w = some o) : v.Comparable w := by
  rw [← compare?_ne_none_iff, h]
  exact Option.some_ne_none o

theorem sortCompare_of_compare? {o : Ordering} (h : v.compare? w = some o) :
    v.sortCompare w = o := by
  rw [sortCompare, h, Option.getD_some]

theorem compare?_eq_lt_iff : v.compare? w = some .lt ↔ v.Precedes w := by
  constructor
  · intro h
    cases comparable_of_compare? h with
    | number hv hw =>
        rw [compare?_of_number hv hw, Option.some.injEq, compare_lt_iff_lt] at h
        exact .number hv hw h
    | text s t => exact .text (compare_string_eq_lt_iff.1 (Option.some.inj h))
    | truth a b =>
        obtain ⟨rfl, rfl⟩ := compare_boolean_eq_lt_iff.1 (Option.some.inj h)
        exact .truth
    | time t u => exact .time (compare_date_eq_lt_iff.1 (Option.some.inj h))
  · rintro (⟨hv, hw, h⟩ | h | _ | h)
    · rw [compare?_of_number hv hw, compare_lt_iff_lt.2 h]
    · exact congrArg some (compare_string_eq_lt_iff.2 h)
    · rfl
    · exact congrArg some (compare_date_eq_lt_iff.2 h)

theorem compare?_eq_eq_iff : v.compare? w = some .eq ↔ v.Coincides w := by
  constructor
  · intro h
    cases comparable_of_compare? h with
    | number hv hw =>
        rw [compare?_of_number hv hw, Option.some.injEq, compare_eq_iff_eq] at h
        subst h
        exact .number hv hw
    | text s t =>
        obtain rfl := compare_eq_iff_eq.1 (Option.some.inj h)
        exact .text s
    | truth a b =>
        obtain rfl := compare_eq_iff_eq.1 (Option.some.inj h)
        exact .truth a
    | time t u =>
        obtain rfl := compare_date_eq_eq_iff.1 (Option.some.inj h)
        exact .time t
  · rintro (⟨hv, hw⟩ | s | b | t)
    · rw [compare?_of_number hv hw, compare_eq_iff_eq.2 rfl]
    · exact congrArg some (compare_eq_iff_eq.2 rfl)
    · exact congrArg some (compare_eq_iff_eq.2 rfl)
    · exact congrArg some (compare_date_eq_eq_iff.2 rfl)

end Outcomes

section Laws

variable {v w x : Value}

theorem Comparable.symm (h : v.Comparable w) : w.Comparable v := by
  cases h with
  | number hv hw => exact .number hw hv
  | text s t => exact .text t s
  | truth a b => exact .truth b a
  | time t u => exact .time u t

theorem Comparable.trans (h : v.Comparable w) (h' : w.Comparable x) : v.Comparable x := by
  cases h with
  | number hv hw =>
      cases h' with
      | number _ hx => exact .number hv hx
      | text _ _ | truth _ _ | time _ _ => cases hw
  | text s t =>
      cases h' with
      | number ht _ => cases ht
      | text _ u => exact .text s u
  | truth a b =>
      cases h' with
      | number hb _ => cases hb
      | truth _ c => exact .truth a c
  | time t u =>
      cases h' with
      | number hu _ => cases hu
      | time _ t' => exact .time t t'

theorem compare?_swap : w.compare? v = (v.compare? w).map Ordering.swap := by
  by_cases h : v.Comparable w
  · rw [compare?_of_comparable h, compare?_of_comparable h.symm, Option.map_some]
    exact congrArg some OrientedCmp.eq_swap
  · rw [compare?_of_not_comparable h, compare?_of_not_comparable fun h' => h h'.symm]
    rfl

theorem compare?_eq_gt_iff : v.compare? w = some .gt ↔ w.Precedes v := by
  rw [← compare?_eq_lt_iff, compare?_swap (v := v)]
  cases v.compare? w with
  | none => simp
  | some o => cases o <;> simp

theorem compare?_congr_right (h : w.compare? x = some .eq) : v.compare? w = v.compare? x := by
  have hwx := comparable_of_compare? h
  by_cases hv : v.Comparable w
  · rw [compare?_of_comparable hv, compare?_of_comparable (hv.trans hwx)]
    exact congrArg some (TransCmp.congr_right (sortCompare_of_compare? h))
  · rw [compare?_of_not_comparable hv,
      compare?_of_not_comparable fun hv' => hv (hv'.trans hwx.symm)]

theorem compare?_congr_left (h : v.compare? w = some .eq) : v.compare? x = w.compare? x := by
  rw [compare?_swap (v := x), compare?_swap (v := x) (w := w), compare?_congr_right h]

end Laws

end Value

end RecordQuery
