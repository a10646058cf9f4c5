import RecordQuery.Proofs.Calendar.LongYears
import RecordQuery.Proofs.Calendar.Validity
import RecordQuery.Proofs.Number.Numerals
import RecordQuery.Proofs.Token.Image

/-!
# Writing the literals of a query

A literal of a query is converted to the type of a column, in one of several notations, and written
in the one notation of that type. What is written is one literal again, whatever follows it, and is
converted to the same value, if not for one exception: a year that four digits do not hold is read
with a sign in front, but with the offset that every date is written with, it is not read at all
(`Literal.readsBack_iff_of_convert`).

The values that come from literals are those for which `Value.IsLiteralOf` asks
(`Literal.isLiteralOf_of_convert`); for a document column this rests on numbers being numerals.
-/

namespace RecordQuery

open Number (Decimal)

namespace Literal

variable {now later : Timestamp} {type : FieldType} {token : Token} {v : Value}

/-- The text of the value is one literal, whatever follows it, and this literal is converted to the
value at any later time. -/
def ReadsBack (later : Timestamp) (type : FieldType) (v : Value) : Prop :=
  ∃ token w, token.isLiteral = true ∧ convert later type token = .ok w ∧ v.same w = true ∧
    ∀ rest : List Char, Lexeme.Breaks rest →
      (Scan.of 0 (v.writeLiteral.toList ++ rest)).tokens =
          token :: (Scan.of 0 rest).tokens.map (Token.shift v.writeLiteral.toList.length) ∧
        ((Scan.of 0 (v.writeLiteral.toList ++ rest)).opened = none ↔
          (Scan.of 0 rest).opened = none)

theorem readsBack_of_denotes (h : Denotes later type v.writeLiteral.toList v) :
    ReadsBack later type v := by
  rcases h.denotes with ⟨token, w, htokens, hliteral, hconvert, hsame⟩
  refine ⟨token, w, hliteral, hconvert, hsame, fun rest hrest => ⟨?_, ?_⟩⟩
  · rw [Scan.tokens_of_append hrest h.closed, htokens]
    rfl
  · exact Scan.opened_of_append_iff hrest h.closed

theorem isValid_of_dateOfWord? {word : String} {t : Timestamp} (valid : now.IsValid)
    (h : dateOfWord? now word = some t) : t.IsValid := by
  unfold dateOfWord? at h
  split at h
  · cases h
    exact valid
  · cases h
    exact now.isValid_midnight 0
  · cases h
    exact now.isValid_midnight 1
  · cases h
    exact now.isValid_midnight (-1)
  · cases h

/-- A literal of a query is converted to a value as columns of the type are compared with. -/
theorem isLiteralOf_of_convert {text : String} {context : QueryContext}
    (htoken : token ∈ (TokenStream.ofText text context).tokens) (valid : now.IsValid)
    (h : convert now type token = .ok v) : v.IsLiteralOf type := by
  unfold convert at h
  cases type with
  | string =>
      cases h
      trivial
  | integer =>
      rcases Option.map_eq_some_iff.1 (orMismatch_eq_ok_iff.1 h) with ⟨n, -, rfl⟩
      trivial
  | decimal =>
      rcases Option.map_eq_some_iff.1 (orMismatch_eq_ok_iff.1 h) with ⟨d, -, rfl⟩
      trivial
  | boolean =>
      rcases Option.map_eq_some_iff.1 (orMismatch_eq_ok_iff.1 h) with ⟨b, -, rfl⟩
      trivial
  | date =>
      rcases Option.map_eq_some_iff.1 (orMismatch_eq_ok_iff.1 h) with ⟨t, hdate, rfl⟩
      rcases Option.or_eq_some_iff.1 hdate with hword | ⟨-, hread⟩
      · exact isValid_of_dateOfWord? valid hword
      · exact Timestamp.isValid_of_read hread
  | json =>
      dsimp only at h
      split at h
      · next hkind =>
          have hnumber := orMismatch_eq_ok_iff.1 h
          unfold numberValue? at hnumber
          split at hnumber
          · cases hnumber
            trivial
          · next hinteger =>
              obtain ⟨d, hread, rfl⟩ := Option.map_eq_some_iff.1 hnumber
              exact Decimal.fitsInt64_of_read_numeral (Scan.isNumeral_of_mem_tokens htoken hkind)
                hinteger hread
      · cases h
        trivial
      · cases h
        trivial

/-- What is written of a date in a year that four digits do not hold is no date. -/
theorem not_readsBack_of_long {t : Timestamp} (valid : t.IsValid)
    (hyear : ¬(0 ≤ t.year ∧ t.year ≤ 9999)) : ¬ReadsBack later .date (.date t) := by
  rintro ⟨token, w, -, hconvert, -, hscan⟩
  have htokens := (hscan [] Lexeme.breaks_nil).1
  rw [Value.writeLiteral, String.toList_ofList, List.append_nil, Lexeme.scan_quoted] at htokens
  obtain rfl := (List.cons.inj htokens).1
  have hread : Timestamp.read t.write = none := Timestamp.read_write_eq_none valid hyear
  have hword : dateOfWord? later (String.ofList t.write) = none := by
    rw [Timestamp.write_eq_of_long hyear]
    apply dateOfWord?_eq_none
    rcases t.yearSign_eq with hsign | hsign
    · rw [hsign]
      decide
    · rw [hsign]
      decide
  simp [convert, hword, hread, orMismatch] at hconvert

/-- What is written of a literal in a query is a literal for the same value, unless it is a date in
a year before zero or behind 9999. -/
theorem readsBack_iff_of_convert {text : String} {context : QueryContext}
    (htoken : token ∈ (TokenStream.ofText text context).tokens) (valid : now.IsValid)
    (h : convert now type token = .ok v) : ReadsBack later type v ↔ v.HasShortYear := by
  have hliteral := isLiteralOf_of_convert htoken valid h
  constructor
  · rintro hreads t rfl
    obtain rfl : type = .date := by cases type <;> first | rfl | cases hliteral
    by_contra hyear
    exact not_readsBack_of_long hliteral hyear hreads
  · exact fun hyear => readsBack_of_denotes (denotes_writeLiteral hliteral hyear)

theorem convert_date {t : Timestamp} (hword : dateOfWord? now token.text = none)
    (hread : Timestamp.read token.text.toList = some t) :
    convert now .date token = .ok (.date t) := by
  simp [convert, hword, hread, orMismatch]

theorem readsBack_iff_of_convert_leap_second :
    ∃ token ∈ (TokenStream.ofText "hired eq ' 2016-12-31 23:59:60.5'" .filter).tokens,
      convert ⟨0, 0⟩ .date token = .ok (.date ⟨1483228799, 1500000000⟩) ∧
        ReadsBack ⟨0, 0⟩ .date (.date ⟨1483228799, 1500000000⟩) := by
  have htoken : (⟨.string, " 2016-12-31 23:59:60.5", 9⟩ : Token) ∈
      (TokenStream.ofText "hired eq ' 2016-12-31 23:59:60.5'" .filter).tokens := by
    decide +kernel
  have hconvert : convert ⟨0, 0⟩ .date ⟨.string, " 2016-12-31 23:59:60.5", 9⟩ =
      .ok (.date ⟨1483228799, 1500000000⟩) :=
    convert_date (by decide +kernel) (by decide +kernel)
  refine ⟨_, htoken, hconvert, (readsBack_iff_of_convert htoken (.inl (by decide)) hconvert).2 ?_⟩
  rintro t ⟨⟩
  decide

/-- A date in a year of five digits, which is read and then written so that it is not read again. -/
theorem not_readsBack_of_five_digits :
    ∃ token ∈ (TokenStream.ofText "hired eq '+10000-01-01'" .filter).tokens,
      token.isLiteral = true ∧ ∃ v, convert ⟨0, 0⟩ .date token = .ok v ∧
        v.writeLiteral = "'+10000-01-01T00:00:00+00:00'" ∧
        ∀ later, ¬ReadsBack later .date v := by
  have htoken : (⟨.string, "+10000-01-01", 9⟩ : Token) ∈
      (TokenStream.ofText "hired eq '+10000-01-01'" .filter).tokens := by
    decide +kernel
  have hconvert : convert ⟨0, 0⟩ .date ⟨.string, "+10000-01-01", 9⟩ =
      .ok (.date ⟨253402300800, 0⟩) :=
    convert_date (by decide +kernel) (by decide +kernel)
  refine ⟨_, htoken, rfl, _, hconvert, by decide +kernel, fun later => ?_⟩
  exact not_readsBack_of_long (.inl (by decide)) (by decide)

end Literal

end RecordQuery
