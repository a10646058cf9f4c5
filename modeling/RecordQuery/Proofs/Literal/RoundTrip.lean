import RecordQuery.Literal
import RecordQuery.Clause.Printer
import RecordQuery.Proofs.Calendar.RoundTrip
import RecordQuery.Proofs.Token.Locality

/-!
# Reading what is written of literals

The text of a literal is one token, and converting that token to the type of the column gives the
same value (`Literal.denotes_writeLiteral`). Strings and dates are quoted texts; numbers and truth
values are words, which begin with a digit or a sign or are keywords themselves.
-/

namespace RecordQuery

open Number (Decimal)

namespace Text

theorem lowerAt_of_ascii (before after : List Char) {c : Char} (h : c.toNat < 0x80) :
    lowerAt before c after = [c.toLower] := by
  have hsigma : c ≠ capitalSigma := by
    rintro rfl
    exact absurd h (by decide)
  have hdotted : c ≠ capitalDottedI := by
    rintro rfl
    exact absurd h (by decide)
  rw [lowerAt, if_neg hsigma, if_neg hdotted, lowerChar, if_pos h]

theorem lowerChars_cons {c : Char} (cs : List Char) (h : c.toNat < 'A'.toNat) :
    lowerChars (c :: cs) = c :: lowerFrom [c] cs := by
  have hbound : 'A'.toNat = 65 := rfl
  have hlower : c.toLower = c := by
    apply dif_neg
    rintro ⟨hle, -⟩
    have hge : 'A'.toNat ≤ c.toNat := UInt32.le_iff_toNat_le.1 hle
    omega
  rw [lowerChars, lowerFrom_cons, lowerAt_of_ascii _ _ (by omega), hlower]
  rfl

/-- A word that begins ahead of the letters is in no case one that begins with a letter. -/
theorem lower_ne_of_head {c d : Char} {cs : List Char} {word : String}
    (h : c.toNat < 'A'.toNat) (hword : word.toList.head? = some d) (hd : 'A'.toNat ≤ d.toNat) :
    lower (String.ofList (c :: cs)) ≠ word := by
  rintro rfl
  rw [toList_lower, String.toList_ofList, lowerChars_cons cs h, List.head?_cons] at hword
  obtain rfl := Option.some.inj hword
  omega

theorem toNat_lt_of_isDigit {c : Char} (h : c.isDigit = true) : c.toNat < 'A'.toNat := by
  rcases Char.isDigit_iff_toNat.1 h with ⟨-, hge⟩
  exact Nat.lt_of_le_of_lt hge (by decide)

end Text

namespace Lexeme

theorem exists_head_of_mem_keywords :
    ∀ p ∈ keywords, ∃ d, p.1.toList.head? = some d ∧ 'A'.toNat ≤ d.toNat := by
  have h : ∀ p ∈ keywords, (p.1.toList.head?.any fun d => 'A'.toNat ≤ d.toNat) = true := by
    decide
  intro p hp
  simpa [Option.any_eq_true] using h p hp

/-- A numeral is a number: it is no keyword. -/
theorem wordKind_of_isNumeral {c : Char} {cs : List Char} (hc : c.toNat < 'A'.toNat)
    (h : isNumeral (c :: cs) = true) : wordKind (c :: cs) = .number := by
  have hlookup : keywords.lookup (Text.lower (String.ofList (c :: cs))) = none := by
    rw [List.lookup_eq_none_iff]
    intro p hp
    rcases exists_head_of_mem_keywords p hp with ⟨d, hhead, hd⟩
    rw [bne_iff_ne]
    exact Text.lower_ne_of_head hc hhead hd
  rw [wordKind, hlookup]
  exact if_pos h

theorem isNumeral_minus {c : Char} (cs : List Char) (h : c ≠ '-') :
    isNumeral ('-' :: c :: cs) = isNumeral (c :: cs) := by
  simp [isNumeral, h]

theorem isNumeral_of_digits {first : Char} {whole tail : List Char} (hfirst : first.isDigit = true)
    (hwhole : whole.all Char.isDigit = true)
    (htail : tail = [] ∨ ∃ places, tail = '.' :: places ∧ places ≠ [] ∧
      places.all Char.isDigit = true) :
    isNumeral (first :: (whole ++ tail)) = true := by
  have hsign : first ≠ '-' := by
    rintro rfl
    exact absurd hfirst (by decide)
  have hdigits : ∀ c ∈ first :: whole, c.isDigit = true := by
    rw [← List.all_eq_true, List.all_cons, hfirst, hwhole]
    rfl
  have htake : (first :: (whole ++ tail)).takeWhile Char.isDigit ≠ [] := by
    rw [List.takeWhile_cons_of_pos hfirst]
    exact List.cons_ne_nil _ _
  have hdrop : (first :: (whole ++ tail)).dropWhile Char.isDigit = tail := by
    rw [← List.cons_append, List.dropWhile_append_of_pos hdigits]
    rcases htail with rfl | ⟨places, rfl, -, -⟩
    · rfl
    · rfl
  rw [← isNumeral_minus _ hsign, isNumeral]
  simp only [hdrop]
  rcases htail with rfl | ⟨places, rfl, hne, hplaces⟩
  · simpa using htake
  · simpa [hne, hplaces] using htake

theorem isNumeral_write (d : Decimal) : isNumeral d.write = true := by
  rcases d.exists_write_eq with ⟨first, whole, places, hfirst, hwhole, hplaces, hlength, -, hwrite⟩
  have hsign : first ≠ '-' := by
    rintro rfl
    exact absurd hfirst (by decide)
  have hunsigned : isNumeral (first :: (whole ++ if d.scale = 0 then [] else '.' :: places)) =
      true := by
    apply isNumeral_of_digits hfirst hwhole
    by_cases hscale : d.scale = 0
    · exact .inl (if_pos hscale)
    · refine .inr ⟨places, if_neg hscale, ?_, hplaces⟩
      rintro rfl
      exact hscale hlength.symm
  rw [hwrite]
  cases d.negative with
  | true =>
      rw [if_pos rfl, List.singleton_append, isNumeral_minus _ hsign]
      exact hunsigned
  | false => exact hunsigned

theorem beq_false_of_isDigit {c d : Char} (hc : c.isDigit = true) (hd : d.isDigit = false) :
    (c == d) = false := by
  rw [beq_eq_false_iff_ne]
  rintro rfl
  rw [hc] at hd
  cases hd

theorem isDelimiter_of_isDigit {c : Char} (h : c.isDigit = true) : isDelimiter c = false := by
  have hne : ∀ d : Char, d.isDigit = false → (c == d) = false := fun d => beq_false_of_isDigit h
  rw [isDelimiter, Text.isWhiteSpace_of_isDigit h, hne '\'' (by decide), hne '(' (by decide),
    hne ')' (by decide), hne ',' (by decide), hne '[' (by decide), hne ']' (by decide),
    hne '=' (by decide), hne '<' (by decide), hne '>' (by decide)]
  rfl

/-- A decimal begins with a digit or a sign, both ahead of the letters. -/
theorem exists_write_eq_cons (d : Decimal) :
    ∃ c cs, d.write = c :: cs ∧ c.toNat < 'A'.toNat := by
  rcases d.exists_write_eq with ⟨first, whole, places, hfirst, -, -, -, -, hwrite⟩
  rw [hwrite]
  cases d.negative with
  | true => exact ⟨'-', _, rfl, by decide⟩
  | false => exact ⟨first, _, rfl, Text.toNat_lt_of_isDigit hfirst⟩

theorem isDelimiter_of_mem_write {d : Decimal} {c : Char} (h : c ∈ d.write) :
    isDelimiter c = false := by
  rcases d.exists_write_eq with ⟨first, whole, places, hfirst, hwhole, hplaces, -, -, hwrite⟩
  rw [List.all_eq_true] at hwhole hplaces
  rw [hwrite, List.mem_append, List.mem_cons, List.mem_append] at h
  rcases h with h | rfl | h | h
  · cases hsign : d.negative with
    | true =>
        rw [hsign, if_pos rfl, List.mem_singleton] at h
        subst h
        decide
    | false =>
        rw [hsign] at h
        cases h
  · exact isDelimiter_of_isDigit hfirst
  · exact isDelimiter_of_isDigit (hwhole c h)
  · by_cases hscale : d.scale = 0
    · rw [if_pos hscale] at h
      cases h
    · rw [if_neg hscale, List.mem_cons] at h
      rcases h with rfl | h
      · decide
      · exact isDelimiter_of_isDigit (hplaces c h)

theorem scan_write (d : Decimal) :
    Scan.of 0 d.write = Scan.cons 0 (.plain .number d.write) Scan.empty := by
  rcases exists_write_eq_cons d with ⟨c, cs, hcons, hc⟩
  have hkind : wordKind d.write = .number := by
    have hnumeral := isNumeral_write d
    rw [hcons] at hnumeral ⊢
    exact wordKind_of_isNumeral hc hnumeral
  have hne : d.write ≠ [] := by
    rw [hcons]
    exact List.cons_ne_nil c cs
  have hword : isUndelimited d.write = true := by
    rw [isUndelimited, List.all_eq_true]
    intro e he
    rw [isDelimiter_of_mem_write he]
    rfl
  rw [Scan.of_word 0 hne hword, hkind]

theorem splitQuoted_doubleQuotes (content : List Char) {rest : List Char}
    (h : ∀ cs, rest ≠ '\'' :: cs) :
    splitQuoted (doubleQuotes content ++ '\'' :: rest) = some (content, rest) := by
  induction content with
  | nil =>
      rw [doubleQuotes, List.nil_append, splitQuoted]
      exact h
  | cons c cs ih =>
      by_cases hc : c = '\''
      · subst hc
        rw [doubleQuotes, if_pos rfl, List.cons_append, List.cons_append, splitQuoted, ih]
        rfl
      · rw [doubleQuotes, if_neg hc, List.cons_append, splitQuoted, ih]
        · rfl
        · exact fun _ h => absurd h hc
        · exact hc

theorem scan_quoted (content : List Char) :
    Scan.of 0 (Lexeme.quoted content).source = Scan.cons 0 (.quoted content) Scan.empty := by
  have htake : take '\'' (doubleQuotes content ++ ['\'']) = .ok (.quoted content, []) := by
    rw [take, splitQuoted_doubleQuotes content (by simp)]
  rw [source, List.cons_append, Scan.of_lexeme 0 (by decide) htake, Scan.of_nil]

end Lexeme

namespace Value

/-- The value is one that a literal for a column of the type can stand for. On a document column, an
integer of 64 bits is no decimal. -/
def IsLiteralOf (type : FieldType) (v : Value) : Prop :=
  match type, v with
  | .string, .string _ | .integer, .integer _ | .decimal, .decimal _ | .boolean, .boolean _ => True
  | .date, .date t => t.IsValid
  | .json, .integer _ | .json, .boolean _ | .json, .string _ => True
  | .json, .decimal d => d.scale = 0 → Number.fitsInt64 d.coefficient = false
  | _, _ => False

def HasShortYear (v : Value) : Prop :=
  ∀ t, v = .date t → 0 ≤ t.year ∧ t.year ≤ 9999

end Value

namespace Literal

variable {now : Timestamp}

structure Denotes (now : Timestamp) (type : FieldType) (cs : List Char) (v : Value) : Prop where
  closed : (Scan.of 0 cs).opened = none
  denotes : ∃ token w, (Scan.of 0 cs).tokens = [token] ∧ token.isLiteral = true ∧
    convert now type token = .ok w ∧ v.same w = true

theorem denotes_quoted {type : FieldType} {content : List Char} {v w : Value}
    (hconvert : convert now type ⟨.string, String.ofList content, 0⟩ = .ok w)
    (hsame : v.same w = true) : Denotes now type (Lexeme.quoted content).source v := by
  constructor
  · rw [Lexeme.scan_quoted]
    rfl
  · exact ⟨_, w, by rw [Lexeme.scan_quoted]; rfl, rfl, hconvert, hsame⟩

theorem denotes_number {type : FieldType} {d : Decimal} {v w : Value}
    (hconvert : convert now type ⟨.number, String.ofList d.write, 0⟩ = .ok w)
    (hsame : v.same w = true) : Denotes now type d.write v := by
  constructor
  · rw [Lexeme.scan_write]
    rfl
  · exact ⟨_, w, by rw [Lexeme.scan_write]; rfl, rfl, hconvert, hsame⟩

theorem dateOfWord?_eq_none {c : Char} {cs : List Char} (h : c.toNat < 'A'.toNat) :
    dateOfWord? now (String.ofList (c :: cs)) = none := by
  have hne : ∀ {d : Char} {word : String}, word.toList.head? = some d → 'A'.toNat ≤ d.toNat →
      Text.lower (String.ofList (c :: cs)) ≠ word := Text.lower_ne_of_head h
  unfold dateOfWord?
  split
  · next heq => exact absurd heq (hne rfl (by decide))
  · next heq => exact absurd heq (hne rfl (by decide))
  · next heq => exact absurd heq (hne rfl (by decide))
  · next heq => exact absurd heq (hne rfl (by decide))
  · rfl

theorem denotes_string {type : FieldType} {s : String} (h : (Value.string s).IsLiteralOf type) :
    Denotes now type (Value.string s).writeLiteral.toList (.string s) := by
  have hsame : (Value.string s).same (.string s) = true := by simp [Value.same]
  rw [Value.writeLiteral, String.toList_ofList]
  cases type with
  | string => exact denotes_quoted (by simp [convert]) hsame
  | json => exact denotes_quoted (by simp [convert]) hsame
  | integer | decimal | boolean | date => cases h

theorem denotes_integer {type : FieldType} {n : Int64} (h : (Value.integer n).IsLiteralOf type) :
    Denotes now type (Value.integer n).writeLiteral.toList (.integer n) := by
  have hsame : (Value.integer n).same (.integer n) = true := by simp [Value.same]
  have hread : Number.readInteger (Decimal.ofInt64 n).write = some n := by
    rw [Decimal.write_ofInt64, Number.readInteger_writeInteger]
  rw [Value.writeLiteral, String.toList_ofList, ← Decimal.write_ofInt64]
  cases type with
  | integer => exact denotes_number (by simp [convert, hread, orMismatch]) hsame
  | json => exact denotes_number (by simp [convert, numberValue?, hread, orMismatch]) hsame
  | string | decimal | boolean | date => cases h

theorem denotes_decimal {type : FieldType} {d : Decimal} (h : (Value.decimal d).IsLiteralOf type) :
    Denotes now type (Value.decimal d).writeLiteral.toList (.decimal d) := by
  rcases Decimal.exists_read_write d with ⟨d', hread, hcompare⟩
  have hsame : (Value.decimal d).same (.decimal d') = true := by simp [Value.same, hcompare]
  rw [Value.writeLiteral, String.toList_ofList]
  cases type with
  | decimal => exact denotes_number (by simp [convert, hread, orMismatch]) hsame
  | json =>
      have hinteger : Number.readInteger d.write = none := Decimal.readInteger_write_eq_none h
      exact denotes_number (by simp [convert, numberValue?, hread, hinteger, orMismatch]) hsame
  | string | integer | boolean | date => cases h

theorem scan_boolean (b : Bool) :
    Scan.of 0 (Value.boolean b).writeLiteral.toList =
      Scan.cons 0 (.plain (.boolean b) (Value.boolean b).writeLiteral.toList) Scan.empty := by
  cases b with
  | true =>
      rw [Scan.of_word 0 (by decide) (by decide)]
      rfl
  | false =>
      rw [Scan.of_word 0 (by decide) (by decide)]
      rfl

theorem denotes_boolean {type : FieldType} {b : Bool} (h : (Value.boolean b).IsLiteralOf type) :
    Denotes now type (Value.boolean b).writeLiteral.toList (.boolean b) := by
  have hword : booleanOfWord? (Value.boolean b).writeLiteral = some b := by
    cases b with
    | true => rfl
    | false => rfl
  have hconvert : convert now type
      ⟨.boolean b, String.ofList (Value.boolean b).writeLiteral.toList, 0⟩ = .ok (.boolean b) := by
    cases type with
    | boolean => simp [convert, hword, orMismatch]
    | json => rfl
    | string | integer | decimal | date => cases h
  constructor
  · rw [scan_boolean]
    rfl
  · exact ⟨_, _, by rw [scan_boolean]; rfl, rfl, hconvert, by simp [Value.same]⟩

theorem denotes_date {type : FieldType} {t : Timestamp} (h : (Value.date t).IsLiteralOf type)
    (hyear : 0 ≤ t.year ∧ t.year ≤ 9999) :
    Denotes now type (Value.date t).writeLiteral.toList (.date t) := by
  have hsame : (Value.date t).same (.date t) = true := by simp [Value.same]
  rw [Value.writeLiteral, String.toList_ofList]
  cases type with
  | date =>
      rcases Timestamp.exists_write_eq_cons hyear with ⟨first, middle, hfirst, hwrite⟩
      have hword : dateOfWord? now (String.ofList t.write) = none := by
        rw [hwrite]
        exact dateOfWord?_eq_none (Text.toNat_lt_of_isDigit hfirst)
      have hread : Timestamp.read t.write = some t := Timestamp.read_write h hyear
      exact denotes_quoted (by simp [convert, hword, hread, orMismatch]) hsame
  | string | integer | decimal | boolean | json => cases h

theorem denotes_writeLiteral {type : FieldType} {v : Value} (h : v.IsLiteralOf type)
    (hyear : v.HasShortYear) : Denotes now type v.writeLiteral.toList v := by
  cases v with
  | null => cases type <;> cases h
  | array items => cases type <;> cases h
  | object fields => cases type <;> cases h
  | string s => exact denotes_string h
  | integer n => exact denotes_integer h
  | decimal d => exact denotes_decimal h
  | boolean b => exact denotes_boolean h
  | date t => exact denotes_date h (hyear t rfl)

end Literal

end RecordQuery
