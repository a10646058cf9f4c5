import RecordQuery.Proofs.Clause.Membership
import RecordQuery.Proofs.Filter.RoundTrip
import RecordQuery.Proofs.Json.Integers
import RecordQuery.Proofs.Number.Integers

/-!
# The readers of integers agree

An integer is read in four places: as a literal for a column of integers, for one of decimals, and
for one of documents, and as a number of a record. A numeral that the first reader accepts is the
same number for the other two, and where the first one fails the other two agree
(`Literal.convert_of_convert_integer`, `Literal.convert_json_iff_decimal`). A record that has an
integer of a machine word in a field passes the test whether that field is equal to the digits of
the integer (`Filter.exists_ofText_integer`).
-/

namespace RecordQuery

open Number (Decimal writeInteger)

namespace FieldType

/-- The values of the type include the integer: those of integers only hold 64 bits with a sign. -/
def Includes (type : FieldType) (n : Int) : Prop :=
  type = .decimal ∨ type = .json ∨ type = .integer ∧ n < 2 ^ 63

/-- Numbers are in the shape of every type of numbers, and of documents. -/
theorem coerce_of_number {type : FieldType} {n : Int} {v : Value} {q : ℚ} (h : type.Includes n)
    (hv : v.number? = some q) : type.coerce v = some v := by
  cases v with
  | integer _ | decimal _ => rcases h with rfl | rfl | ⟨rfl, -⟩ <;> rfl
  | null | boolean _ | string _ | date _ | array _ | object _ => cases hv

end FieldType

theorem Column.equates_of_number (c : Column) {v w : Value} {q : ℚ} (hv : v.number? = some q)
    (hw : w.number? = some q) : c.equates v w = true := by
  rw [equates_eq, folded_of_number hv, folded_of_number hw, Value.compare?_of_number hv hw]
  simp

namespace Literal

variable {now : Timestamp} {token : Token}

theorem convert_integer_eq_ok_iff {v : Value} :
    convert now .integer token = .ok v ↔
      ∃ i, Number.readInteger token.text.toList = some i ∧ v = .integer i := by
  rw [convert, orMismatch_eq_ok_iff, Option.map_eq_some_iff]
  simp only [eq_comm]

theorem convert_decimal_eq_ok_iff {v : Value} :
    convert now .decimal token = .ok v ↔
      ∃ d, Decimal.read token.text.toList = some d ∧ v = .decimal d := by
  rw [convert, orMismatch_eq_ok_iff, Option.map_eq_some_iff]
  simp only [eq_comm]

theorem convert_json_eq_ok_iff {v : Value} (h : token.kind = .number) :
    convert now .json token = .ok v ↔ numberValue? token.text.toList = some v := by
  simp only [convert, h, orMismatch_eq_ok_iff]

/-- A number that is an integer of 64 bits is read as that integer for every type of numbers. -/
theorem convert_of_convert_integer {v : Value} (hkind : token.kind = .number)
    (h : convert now .integer token = .ok v) :
    ∃ i d, v = .integer i ∧ convert now .decimal token = .ok (.decimal d) ∧
      d.toRat = i.toInt ∧ convert now .json token = .ok (.integer i) := by
  obtain ⟨i, hread, rfl⟩ := convert_integer_eq_ok_iff.1 h
  obtain ⟨n, hsigned, hi⟩ := Option.bind_eq_some_iff.1 hread
  obtain rfl := Number.toInt_of_int64? hi
  obtain ⟨d, hd, hvalue⟩ := Decimal.read_of_readSigned hsigned (Number.natAbs_toInt_lt i)
  refine ⟨i, d, rfl, convert_decimal_eq_ok_iff.2 ⟨d, hd, rfl⟩, hvalue, ?_⟩
  rw [convert_json_eq_ok_iff hkind, numberValue?, hread]

/-- A number that is no integer of 64 bits is for a document what it is as a decimal. -/
theorem convert_json_iff_decimal {reason : Mismatch} (hkind : token.kind = .number)
    (h : convert now .integer token = .error reason) (v : Value) :
    convert now .json token = .ok v ↔ convert now .decimal token = .ok v := by
  have hnone : Number.readInteger token.text.toList = none := by
    by_contra hne
    obtain ⟨i, hread⟩ := Option.ne_none_iff_exists'.1 hne
    rw [convert_integer_eq_ok_iff.2 ⟨i, hread, rfl⟩] at h
    cases h
  rw [convert_json_eq_ok_iff hkind, numberValue?, hnone, convert_decimal_eq_ok_iff,
    Option.map_eq_some_iff]
  simp only [eq_comm]

/-- The digits of an integer are a literal for a value that is this integer. -/
theorem exists_convert_writeInteger {type : FieldType} {n : Int} (position : Nat)
    (hn : (JsonNumber.integer n).IsMachineNumber) (htype : type.Includes n) :
    ∃ v, convert now type ⟨.number, String.ofList (writeInteger n), position⟩ = .ok v ∧
      v.number? = some (n : ℚ) := by
  obtain ⟨d, hd, hvalue⟩ :=
    Decimal.read_of_readSigned (Number.readSigned_writeInteger n) hn.natAbs_lt
  have hdecimal : convert now .decimal ⟨.number, String.ofList (writeInteger n), position⟩ =
      .ok (.decimal d) :=
    convert_decimal_eq_ok_iff.2 ⟨d, by rw [String.toList_ofList, hd], rfl⟩
  rcases htype with rfl | rfl | ⟨rfl, hle⟩
  · exact ⟨_, hdecimal, congrArg some hvalue⟩
  · cases hinteger : convert now .integer ⟨.number, String.ofList (writeInteger n), position⟩ with
    | error reason =>
        exact ⟨_, (convert_json_iff_decimal rfl hinteger _).2 hdecimal, congrArg some hvalue⟩
    | ok v =>
        obtain ⟨i, e, -, he, hi, hjson⟩ := convert_of_convert_integer rfl hinteger
        rw [hdecimal] at he
        cases he
        exact ⟨_, hjson, congrArg some (hi.symm.trans hvalue)⟩
  · have hfits : Number.fitsInt64 n = true := by
      rw [JsonNumber.IsMachineNumber] at hn
      simp only [Number.fitsInt64, Bool.and_eq_true, decide_eq_true_eq]
      omega
    have hword : Number.int64? n = some (Int64.ofInt n) := if_pos hfits
    refine ⟨.integer (Int64.ofInt n), convert_integer_eq_ok_iff.2 ⟨_, ?_, rfl⟩, ?_⟩
    · rw [String.toList_ofList, Number.readInteger, Number.readSigned_writeInteger,
        Option.bind_some, hword]
    · rw [Value.number?, Number.toInt_of_int64? hword]

end Literal

namespace Filter

open Grammar

variable {catalog : Catalog} {now : Timestamp} {column : Column} {n : Int}

/-- The test whether the column is equal to a number, from the digits of the number. -/
theorem derivesText_integer (hname : catalog.FindsName column) {v : Value}
    (hv : Literal.convert now column.type ⟨.number, String.ofList (writeInteger n), 0⟩ = .ok v)
    (hn : n.natAbs < Decimal.bound) :
    DerivesText catalog now 0 (column.name ++ " eq " ++ String.ofList (writeInteger n))
      [Relation.equal.clause ⟨column, []⟩ v] := by
  obtain ⟨hclosed, name, hscan, hkind, hresolve⟩ := hname.scan
  have htext : (column.name ++ " eq " ++ String.ofList (writeInteger n)).toList =
      column.name.toList ++
        ' ' :: ((Operator.relation .equal).keyword.toList ++ ' ' :: writeInteger n) := by
    simp [Operator.keyword, Relation.keyword]
  have hdigits : Scan.of 0 (writeInteger n) =
      Scan.cons 0 (.plain .number (writeInteger n)) Scan.empty := by
    rw [← Decimal.write_integer hn]
    exact Lexeme.scan_write _
  have hoperand : Operand now column ⟨.number, String.ofList (writeInteger n), 0⟩ v := ⟨rfl, hv⟩
  constructor
  · rw [htext, Scan.opened_of_append_space_iff _ hclosed,
      Scan.opened_of_append_space_iff _ (Operator.closed_keyword _), hdigits]
    rfl
  · rw [htext, Scan.tokens_of_append_space _ hclosed, hscan, Operator.tokens_keyword_append,
      hdigits, Scan.tokens_cons_plain, Scan.tokens_empty]
    exact .last (.leaf .absent hkind hresolve .nil
      (.relation rfl ((((hoperand.shift _).shift _).shift _).shift _)))

/-- A field that is an integer is found as the value that this number is. -/
theorem find_of_field_integer {record : Json}
    (hn : (JsonNumber.integer n).IsMachineNumber)
    (hfield : record.field? column.name = some (.number (.integer n))) :
    ∃ v, (Path.mk column []).find record = .present v ∧ v.number? = some (n : ℚ) := by
  have hvalue := Value.number?_ofJsonNumber hn
  have hroot : Record.field record column.name = some (Value.ofJsonNumber (.integer n)) := by
    change (record.field? column.name).map Value.ofJson = _
    rw [hfield]
    rfl
  exact ⟨_, Path.find_of_ne_null hroot rfl (Value.ne_null_of_number hvalue), hvalue⟩

/-- The digits of an integer select the records with this integer in the field. -/
theorem exists_ofText_integer (now : Timestamp) (hname : catalog.FindsName column)
    (allowed : catalog.Allows 1) (hn : (JsonNumber.integer n).IsMachineNumber)
    (htype : column.type.Includes n) :
    ∃ f, ofText catalog now (column.name ++ " eq " ++ String.ofList (writeInteger n)) = .ok f ∧
      ∀ record : Json, record.field? column.name = some (.number (.integer n)) →
        f.holds record = true := by
  obtain ⟨literal, hconvert, hliteral⟩ := Literal.exists_convert_writeInteger 0 hn htype
  refine ⟨⟨[Relation.equal.clause ⟨column, []⟩ literal]⟩,
    ofText_of_derivesText (derivesText_integer hname hconvert hn.natAbs_lt) (Nat.zero_le _)
      allowed, fun record hfield => ?_⟩
  obtain ⟨v, hfound, hv⟩ := find_of_field_integer hn hfield
  rw [holds, Clause.sequenceHolds_singleton,
    Relation.clause_holds_of_present hfound (FieldType.coerce_of_number htype hv)]
  exact column.equates_of_number hv hliteral

/-- The readers of integers agree. A number that a column of integers takes is the same number for a
column of decimals, and the same integer for one of documents; any other number is for documents
what it is for decimals. The digits of an integer of a machine word, signed or unsigned, are read as
this integer wherever they stand in a document, and the test whether a column is equal to them is
passed by the records that have the integer there, if it is a column of decimals or documents, or of
integers that include this one. -/
theorem readers_of_integers_agree (now : Timestamp) :
    (∀ token : Token, token.kind = .number →
      (∀ v, Literal.convert now .integer token = .ok v →
        ∃ i d, v = .integer i ∧ Literal.convert now .decimal token = .ok (.decimal d) ∧
          d.toRat = i.toInt ∧ Literal.convert now .json token = .ok (.integer i)) ∧
      ∀ reason, Literal.convert now .integer token = .error reason →
        ∀ v, Literal.convert now .json token = .ok v ↔
          Literal.convert now .decimal token = .ok v) ∧
    ∀ (catalog : Catalog) (column : Column) (n : Int), catalog.FindsName column →
      catalog.Allows 1 → -2 ^ 63 ≤ n → n < 2 ^ 64 → column.type.Includes n →
      (∀ room rest, Json.EndsNumber rest →
        Json.readValue room (writeInteger n ++ rest) = .ok (.number (.integer n), rest)) ∧
      ∃ f, ofText catalog now (column.name ++ " eq " ++ String.ofList (writeInteger n)) = .ok f ∧
        ∀ record : Json, record.field? column.name = some (.number (.integer n)) →
          f.holds record = true := by
  constructor
  · intro token hkind
    exact ⟨fun _ => Literal.convert_of_convert_integer hkind,
      fun _ => Literal.convert_json_iff_decimal hkind⟩
  · intro catalog column n hname allowed hle hlt htype
    have hn : (JsonNumber.integer n).IsMachineNumber := by
      rw [JsonNumber.IsMachineNumber]
      omega
    exact ⟨fun room _ => Json.readValue_writeInteger room hn,
      exists_ofText_integer now hname allowed hn htype⟩

/-- The largest integer of 64 bits with a sign, the number behind it, and the largest integer
without a sign, on a column of documents. -/
theorem readers_of_integers_agree_largest :
    (∃ i d, Value.integer 9223372036854775807 = .integer i ∧
      Literal.convert ⟨0, 0⟩ .decimal ⟨.number, "9223372036854775807", 0⟩ = .ok (.decimal d) ∧
      d.toRat = i.toInt ∧
      Literal.convert ⟨0, 0⟩ .json ⟨.number, "9223372036854775807", 0⟩ = .ok (.integer i)) ∧
    (∀ v, Literal.convert ⟨0, 0⟩ .json ⟨.number, "9223372036854775808", 0⟩ = .ok v ↔
      Literal.convert ⟨0, 0⟩ .decimal ⟨.number, "9223372036854775808", 0⟩ = .ok v) ∧
    Json.readValue 0 "18446744073709551615\x7d".toList =
      .ok (.number (.integer 18446744073709551615), ['}']) ∧
    ∃ f, ofText staff ⟨0, 0⟩ "meta eq 18446744073709551615" = .ok f ∧
      f.holds (Json.object [("meta", .number (.integer 18446744073709551615))]) = true := by
  have hnumbers := (readers_of_integers_agree ⟨0, 0⟩).1
  have hdigits : writeInteger 18446744073709551615 = "18446744073709551615".toList := by
    decide +kernel
  have hword : (Column.mk "meta" .json [] true false).IsWord := ⟨0, by decide +kernel⟩
  obtain ⟨hread, f, hf, hholds⟩ := (readers_of_integers_agree ⟨0, 0⟩).2 staff
    ⟨"meta", .json, [], true, false⟩ 18446744073709551615 (hword.findsName (by simp [staff]))
    (by rintro _ ⟨⟩; decide) (by decide) (by decide) (.inr (.inl rfl))
  rw [hdigits] at hread hf
  refine ⟨?_, ?_, ?_, f, hf, hholds _ rfl⟩
  · exact (hnumbers ⟨.number, "9223372036854775807", 0⟩ rfl).1 _ (by cbv)
  · exact (hnumbers ⟨.number, "9223372036854775808", 0⟩ rfl).2 .notInteger (by cbv)
  · exact hread 0 ['}'] (by rintro c ⟨⟩; decide)

/-- That a name makes one identifier is not enough: the blank ahead of a word is lost, and with it
the name of the column. -/
theorem not_readers_of_integers_agree_of_one_identifier :
    ¬∀ (catalog : Catalog) (now : Timestamp) (column : Column) (n : Int),
      column ∈ catalog.columns →
      (TokenStream.ofText column.name .filter).pendingFault = none →
      (∃ token, (TokenStream.ofText column.name .filter).tokens = [token] ∧
        token.kind = .identifier) →
      catalog.Allows 1 → -2 ^ 63 ≤ n → n < 2 ^ 64 → column.type.Includes n →
      ∃ f, ofText catalog now (column.name ++ " eq " ++ String.ofList (writeInteger n)) = .ok f ∧
        ∀ record : Json, record.field? column.name = some (.number (.integer n)) →
          f.holds record = true := by
  intro h
  have hread : ofText spaced ⟨0, 0⟩ (" id" ++ " eq " ++ String.ofList (writeInteger 1)) =
      .error ⟨" id eq 1", .filter, .unknownColumn "id" 1⟩ := by
    cbv
  obtain ⟨f, hf, -⟩ := h spaced ⟨0, 0⟩ ⟨" id", .integer, ["x"], false, false⟩ 1
    (by simp [spaced]) (by decide +kernel) ⟨⟨.identifier, "id", 1⟩, by decide +kernel, rfl⟩
    (by rintro _ ⟨⟩) (by decide) (by decide) (.inr (.inr ⟨rfl, by decide⟩))
  rw [hread] at hf
  cases hf

end Filter

end RecordQuery
