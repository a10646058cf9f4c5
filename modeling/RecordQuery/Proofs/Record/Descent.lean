import Mathlib
import RecordQuery.Record

/-!
# Where keys lead

A key leads from an object to one of its fields and from an array to one of its items, and from
other values nowhere. A path of keys can go three ways (`Value.exists_descent`). It leads to a value
(`Value.Leads`); or only its last key is missing (`Value.LacksLast`); or it goes astray, on a value
without parts or on a missing key with more keys behind it (`Value.GoesAstray`). In this order a
path finds the value that it leads to, null, and nothing at all.
-/

namespace RecordQuery

/-- A key is read as the index of an item: as digits, which may have a plus sign ahead of them, for
a number of at most 64 bits. -/
def DenotesIndex (key : String) (index : Nat) : Prop :=
  ∃ digits : List Char, (key.toList = digits ∨ key.toList = '+' :: digits) ∧ digits ≠ [] ∧
    (∀ c ∈ digits, c.isDigit = true) ∧ Nat.ofDigitChars 10 digits 0 = index ∧ index < 2 ^ 64

namespace Number

theorem readNatural_eq_some_iff {cs : List Char} {n : Nat} :
    readNatural cs = some n ↔
      cs ≠ [] ∧ (∀ c ∈ cs, c.isDigit = true) ∧ Nat.ofDigitChars 10 cs 0 = n := by
  rw [readNatural, digitsValue]
  split
  · next h =>
      rw [Bool.and_eq_true, Bool.not_eq_true', List.isEmpty_eq_false_iff, List.all_eq_true] at h
      rw [Option.some.injEq]
      exact ⟨fun hvalue => ⟨h.1, h.2, hvalue⟩, fun hvalue => hvalue.2.2⟩
  · next h =>
      rw [Bool.and_eq_true, Bool.not_eq_true', List.isEmpty_eq_false_iff, List.all_eq_true] at h
      constructor
      · intro hnone
        cases hnone
      · rintro ⟨hne, hdigits, -⟩
        exact absurd ⟨hne, hdigits⟩ h

theorem readIndex_eq_some_iff {key : String} {n : Nat} :
    readIndex key.toList = some n ↔ DenotesIndex key n := by
  have hfits : fitsUInt64 n = true ↔ n < 2 ^ 64 := by
    rw [fitsUInt64, decide_eq_true_eq]
    omega
  unfold readIndex
  rw [Option.filter_eq_some_iff, readNatural_eq_some_iff, hfits]
  constructor
  · rintro ⟨⟨hne, hdigits, hvalue⟩, hbound⟩
    refine ⟨_, ?_, hne, hdigits, hvalue, hbound⟩
    split
    · next rest h => exact .inr h
    · exact .inl rfl
  · rintro ⟨digits, hkey, hne, hdigits, hvalue, hbound⟩
    rcases hkey with hkey | hkey
    · rw [hkey]
      split
      · exact absurd (hdigits '+' List.mem_cons_self) (by decide)
      · exact ⟨⟨hne, hdigits, hvalue⟩, hbound⟩
    · rw [hkey]
      exact ⟨⟨hne, hdigits, hvalue⟩, hbound⟩

end Number

namespace Value

/-- The part of a value under a key: the field of an object with this name, or the item of an array
with this index. -/
inductive Part : Value → String → Value → Prop where
  | field {fields : List (String × Value)} {key : String} {v : Value}
      (h : fields.lookup key = some v) : Part (.object fields) key v
  | item {items : List Value} {key : String} {index : Nat} {v : Value}
      (hindex : DenotesIndex key index) (h : items[index]? = some v) : Part (.array items) key v

def IsScalar (v : Value) : Prop :=
  (∀ fields, v ≠ .object fields) ∧ ∀ items, v ≠ .array items

inductive Leads : Value → List String → Value → Prop where
  | nil (v : Value) : Leads v [] v
  | cons {v part w : Value} {key : String} {keys : List String} (h : v.Part key part)
      (hrest : Leads part keys w) : Leads v (key :: keys) w

/-- The keys lead to a value with parts, but for the last one, which is missing there. -/
inductive LacksLast : Value → List String → Prop where
  | missing {v : Value} {key : String} (hv : ¬v.IsScalar) (h : ∀ part, ¬v.Part key part) :
      LacksLast v [key]
  | cons {v part : Value} {key : String} {keys : List String} (h : v.Part key part)
      (hrest : LacksLast part keys) : LacksLast v (key :: keys)

/-- Along the keys there is a value without parts, or a key that is missing and not the last. -/
inductive GoesAstray : Value → List String → Prop where
  | scalar {v : Value} {key : String} {keys : List String} (hv : v.IsScalar) :
      GoesAstray v (key :: keys)
  | missing {v : Value} {key : String} {keys : List String} (h : ∀ part, ¬v.Part key part)
      (hkeys : keys ≠ []) : GoesAstray v (key :: keys)
  | cons {v part : Value} {key : String} {keys : List String} (h : v.Part key part)
      (hrest : GoesAstray part keys) : GoesAstray v (key :: keys)

variable {v w : Value} {key : String} {keys : List String}

section Step

theorem child?_eq_some_iff : v.child? key = some w ↔ v.Part key w := by
  constructor
  · intro h
    cases v with
    | object fields => exact .field h
    | array items =>
        obtain ⟨index, hindex, hitem⟩ := Option.bind_eq_some_iff.1 h
        exact .item (Number.readIndex_eq_some_iff.1 hindex) hitem
    | null | boolean _ | integer _ | decimal _ | string _ | date _ => cases h
  · rintro (h | ⟨hindex, h⟩)
    · exact h
    · rw [child?, Number.readIndex_eq_some_iff.2 hindex, Option.bind_some, h]

theorem child?_eq_none_iff : v.child? key = none ↔ ∀ part, ¬v.Part key part := by
  simp only [Option.eq_none_iff_forall_ne_some, ne_eq, child?_eq_some_iff]

theorem hasChildren_eq_false_iff : v.hasChildren = false ↔ v.IsScalar := by
  cases v <;> simp [hasChildren, IsScalar]

theorem Part.hasChildren (h : v.Part key w) : v.hasChildren = true := by
  cases h <;> rfl

theorem descend_of_part (h : v.Part key w) : v.descend (key :: keys) = w.descend keys := by
  rw [descend, if_pos h.hasChildren, child?_eq_some_iff.2 h]

end Step

section Descent

theorem descend_of_leads (h : v.Leads keys w) : v.descend keys = w.descend [] := by
  induction h with
  | nil v => rfl
  | cons h _ ih => rw [descend_of_part h, ih]

theorem descend_of_lacksLast (h : v.LacksLast keys) : v.descend keys = .null := by
  induction h with
  | missing hv h =>
      rw [← hasChildren_eq_false_iff, Bool.not_eq_false] at hv
      rw [descend, if_pos hv, child?_eq_none_iff.2 h]
      rfl
  | cons h _ ih => rw [descend_of_part h, ih]

theorem descend_of_goesAstray (h : v.GoesAstray keys) : v.descend keys = .unreachable := by
  induction h with
  | scalar hv => rw [descend, hasChildren_eq_false_iff.2 hv, if_neg Bool.false_ne_true]
  | missing h hkeys =>
      rw [descend, child?_eq_none_iff.2 h]
      simp [hkeys]
  | cons h _ ih => rw [descend_of_part h, ih]

theorem exists_descent (v : Value) (keys : List String) :
    v.GoesAstray keys ∨ v.LacksLast keys ∨ ∃ w, v.Leads keys w := by
  induction keys generalizing v with
  | nil => exact .inr (.inr ⟨v, .nil v⟩)
  | cons key keys ih =>
      by_cases hv : v.IsScalar
      · exact .inl (.scalar hv)
      · cases hchild : v.child? key with
        | some part =>
            have hpart := child?_eq_some_iff.1 hchild
            exact (ih part).imp (.cons hpart) fun h =>
              h.imp (.cons hpart) fun ⟨w, hw⟩ => ⟨w, .cons hpart hw⟩
        | none =>
            have hmissing := child?_eq_none_iff.1 hchild
            by_cases hkeys : keys = []
            · subst hkeys
              exact .inr (.inl (.missing hv hmissing))
            · exact .inl (.missing hmissing hkeys)

end Descent

end Value

end RecordQuery
