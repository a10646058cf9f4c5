import RecordQuery.Proofs.Record.Absence

/-!
# What a test sees

The null tests ask whether there is a value. Every other test sees the value that has been found in
the shape of the column's type, or nothing: if nothing is found, or null, or a value of another
shape (`Test.holds_eq_any`). It fails on nothing, but for `ne`, which null passes.
-/

namespace RecordQuery

/-- The value that has been found, in the shape of a type, if one has been found of that shape. -/
def Found.shaped? (type : FieldType) : Found → Option Value
  | .present v => type.coerce v
  | .null => none
  | .unreachable => none

namespace Test

variable {t : Test} {column : Column}

def asksForNull : Test → Bool
  | .criterion .isNull _ => true
  | .criterion .isNotNull _ => true
  | _ => false

theorem holds_present (h : t.asksForNull = false) (column : Column) (v : Value) :
    t.holds column (.present v) = (column.type.coerce v).any (t.holdsOf column) := by
  cases t with
  | criterion operation value =>
      cases operation with
      | relation r => cases r <;> simp only [holds] <;> cases column.type.coerce v <;> rfl
      | text _ =>
          simp only [holds]
          cases column.type.coerce v <;> rfl
      | isNull | isNotNull => cases h
  | between _ _ | oneOf _ =>
      simp only [holds]
      cases column.type.coerce v <;> rfl

/-- A test that null does not pass, and that does not ask for it, sees a value of the column's shape
or nothing. -/
theorem holds_eq_any (h : t.asksForNull = false) (hnull : t.passedByNull = false)
    (column : Column) (found : Found) :
    t.holds column found = (found.shaped? column.type).any (t.holdsOf column) := by
  cases found with
  | present v => exact holds_present h column v
  | null => exact (t.holds_not_present column).1.trans hnull
  | unreachable => exact (t.holds_not_present column).2

end Test

end RecordQuery
