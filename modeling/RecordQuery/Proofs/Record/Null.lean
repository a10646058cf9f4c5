import RecordQuery.Filter.Match
import RecordQuery.Proofs.Json.Numbers

/-!
# Null in documents

A document becomes a value part by part, and null comes from null alone, with one exception: a
number that is too large for a decimal becomes null as well (`Json.CountsAsNull`). Such a number is
a double of at least the 96th power of two; no integer is that large. So `is null` finds the fields
that are absent, null, or too large, and `is not null` the others (`Filter.isNull_holds_iff`).
-/

namespace RecordQuery

/-- The document is null, or a number that is too large for a decimal. -/
def Json.CountsAsNull (v : Json) : Prop :=
  v = .null ∨ ∃ n, v = .number n ∧ n.Outgrows

theorem Value.ofJson_eq_null_iff {v : Json} (h : v.HasMachineNumbers) :
    ofJson v = .null ↔ v.CountsAsNull := by
  cases h with
  | null => exact iff_of_true rfl (.inl rfl)
  | number h =>
      rw [ofJson, ofJsonNumber_eq_null_iff h]
      simp [Json.CountsAsNull]
  | boolean _ | string _ | array _ | object _ => simp [ofJson, Json.CountsAsNull]

/-- The parts of an object are documents with numbers of the same kind. -/
theorem Json.HasMachineNumbers.of_field? {record v : Json} {name : String}
    (h : record.HasMachineNumbers) (hfield : record.field? name = some v) :
    v.HasMachineNumbers := by
  cases h with
  | null | boolean _ | number _ | string _ | array _ => cases hfield
  | object hfields =>
      rcases List.lookup_eq_some_iff.1 hfield with ⟨before, after, rfl, -⟩
      exact hfields (name, v) (List.mem_append_right _ (List.mem_cons_self ..))

namespace Filter

def isNull (column : Column) : Filter :=
  ⟨[.leaf false none ⟨column, []⟩ (.criterion .isNull none)]⟩

def isNotNull (column : Column) : Filter :=
  ⟨[.leaf false none ⟨column, []⟩ (.criterion .isNotNull none)]⟩

section Fields

variable {ρ : Type} [Record ρ] {record : ρ} {column : Column}

theorem isNull_holds_iff_field :
    (isNull column).holds record = true ↔
      Record.field record column.name = none ∨ Record.field record column.name = some .null := by
  change ((Test.criterion .isNull none).holds column (Path.find ⟨column, []⟩ record) != false)
    = true ↔ _
  cases hfield : Record.field record column.name with
  | none => simp [Path.find, hfield, Test.holds]
  | some v => cases v <;> simp [Path.find, hfield, Value.descend, Value.isNull, Test.holds]

theorem isNotNull_holds_iff_field :
    (isNotNull column).holds record = true ↔
      ∃ v, Record.field record column.name = some v ∧ v ≠ .null := by
  change ((Test.criterion .isNotNull none).holds column (Path.find ⟨column, []⟩ record) != false)
    = true ↔ _
  cases hfield : Record.field record column.name with
  | none => simp [Path.find, hfield, Test.holds]
  | some v => cases v <;> simp [Path.find, hfield, Value.descend, Value.isNull, Test.holds]

end Fields

/-- A document passes `is null` on a column if it has no such field, or one that is null or a number
too large for a decimal; otherwise it passes `is not null`. The value of a document is null in these
two cases and no other. -/
theorem isNull_holds_iff {record : Json} (h : record.HasMachineNumbers) (column : Column) :
    ((isNull column).holds record = true ↔ record.field? column.name = none ∨
      ∃ v, record.field? column.name = some v ∧ v.CountsAsNull) ∧
    ((isNotNull column).holds record = true ↔
      ∃ v, record.field? column.name = some v ∧ ¬ v.CountsAsNull) ∧
    (Value.ofJson record = .null ↔ record.CountsAsNull) := by
  have hfield : Record.field record column.name =
      (record.field? column.name).map Value.ofJson := rfl
  refine ⟨?_, ?_, Value.ofJson_eq_null_iff h⟩
  · rw [isNull_holds_iff_field, hfield]
    cases hv : record.field? column.name with
    | none => simp
    | some v => simp [Value.ofJson_eq_null_iff (h.of_field? hv)]
  · rw [isNotNull_holds_iff_field, hfield]
    cases hv : record.field? column.name with
    | none => simp
    | some v => simp [Value.ofJson_eq_null_iff (h.of_field? hv)]

theorem isNull_holds_iff_pair :
    (isNull ⟨"n", .decimal, [], false, false⟩).holds (Json.object
        [("m", .number (.float ⟨false, 8981260180007666, 43⟩)),
          ("n", .number (.float ⟨true, 5684341886080801, 44⟩))]) = true ∧
      (isNotNull ⟨"m", .decimal, [], false, false⟩).holds (Json.object
        [("m", .number (.float ⟨false, 8981260180007666, 43⟩)),
          ("n", .number (.float ⟨true, 5684341886080801, 44⟩))]) = true := by
  have hsmall : (JsonNumber.float ⟨false, 8981260180007666, 43⟩).IsMachineNumber :=
    ⟨by decide, by decide, by decide, .inr (by decide)⟩
  have hlarge : (JsonNumber.float ⟨true, 5684341886080801, 44⟩).IsMachineNumber :=
    ⟨by decide, by decide, by decide, .inr (by decide)⟩
  have hfits : ¬ (JsonNumber.float ⟨false, 8981260180007666, 43⟩).Outgrows := by
    rw [JsonNumber.Outgrows, Number.Binary64.magnitude_eq_cast (by decide), Nat.cast_le]
    decide
  have houtgrows : (JsonNumber.float ⟨true, 5684341886080801, 44⟩).Outgrows := by
    rw [JsonNumber.Outgrows, Number.Binary64.magnitude_eq_cast (by decide), Nat.cast_le]
    decide
  have hnumbers : (Json.object [("m", .number (.float ⟨false, 8981260180007666, 43⟩)),
      ("n", .number (.float ⟨true, 5684341886080801, 44⟩))]).HasMachineNumbers :=
    .object (by simp [Json.HasMachineNumbers.number hsmall, Json.HasMachineNumbers.number hlarge])
  refine ⟨(isNull_holds_iff hnumbers _).1.2 (.inr ⟨_, rfl, .inr ⟨_, rfl, houtgrows⟩⟩),
    (isNull_holds_iff hnumbers _).2.1.2 ⟨_, rfl, ?_⟩⟩
  rintro (hnull | ⟨n, hn, hn'⟩)
  · cases hnull
  · cases hn
    exact hfits hn'

theorem not_isNull_holds_iff_absent :
    ¬ ∀ (record : Json) (column : Column), record.HasMachineNumbers →
      ((isNull column).holds record = true ↔
        record.field? column.name = none ∨ record.field? column.name = some .null) := by
  intro h
  have hlarge : (JsonNumber.float ⟨false, 5684341886080801, 44⟩).IsMachineNumber :=
    ⟨by decide, by decide, by decide, .inr (by decide)⟩
  have hnumbers : Json.HasMachineNumbers
      (.object [("n", .number (.float ⟨false, 5684341886080801, 44⟩))]) :=
    .object (by simp [Json.HasMachineNumbers.number hlarge])
  have hholds : (isNull ⟨"n", .decimal, [], false, false⟩).holds
      (Json.object [("n", .number (.float ⟨false, 5684341886080801, 44⟩))]) = true := by
    decide +kernel
  rcases (h _ _ hnumbers).1 hholds with habsent | hnull
  · cases habsent
  · cases hnull

end Filter

end RecordQuery
