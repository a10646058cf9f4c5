import RecordQuery.Proofs.Catalog.Words
import RecordQuery.Proofs.Filter.RoundTrip
import RecordQuery.Proofs.Order.Grammar

/-!
# Reading what is written of orders

The canonical text of an order stands for that order (`SortKey.ofText_writeAll`), if the catalog
finds its columns by what is scanned of their names. By induction over the keys: what is written of
them is closed, and the grammar derives the same keys from it. A column may be called like a
direction, since the direction is always written out and so stands where the rules look for it.
-/

namespace RecordQuery

namespace Direction

theorem scan_keyword (direction : Direction) :
    Scan.of 0 direction.keyword.toList =
      Scan.cons 0 (.plain .identifier direction.keyword.toList) Scan.empty := by
  have hkind : Lexeme.wordKind direction.keyword.toList = .identifier := by
    cases direction <;> decide +kernel
  rw [Scan.of_word 0, hkind]
  · cases direction <;> decide
  · cases direction <;> decide +kernel

theorem lower_keyword_mem (direction : Direction) :
    Text.lower direction.keyword ∈ direction.words := by
  cases direction <;> decide +kernel

end Direction

namespace SortKey

open Grammar

variable {catalog : Catalog} {keys : List SortKey}

theorem derivesSortKey_write {key : SortKey} (name : catalog.FindsName key.column) :
    (Scan.of 0 key.write.toList).opened = none ∧
      DerivesSortKey catalog (Scan.of 0 key.write.toList).tokens key := by
  have htext : key.write.toList =
      key.column.name.toList ++ ' ' :: key.direction.keyword.toList := by
    simp [write]
  obtain ⟨hclosed, token, htoken, hkind, hresolve⟩ := name.scan
  rw [htext, Scan.opened_of_append_space_iff _ hclosed, Scan.tokens_of_append_space _ hclosed,
    htoken, Direction.scan_keyword]
  refine ⟨rfl, .directed hkind hresolve rfl ?_⟩
  rw [Token.text_shift, Token.text_shift, String.ofList_toList]
  exact key.direction.lower_keyword_mem

theorem derivesSortKeys_writeAll (hne : keys ≠ [])
    (names : ∀ key ∈ keys, catalog.FindsName key.column) :
    (Scan.of 0 (writeAll keys).toList).opened = none ∧
      DerivesSortKeys catalog (Scan.of 0 (writeAll keys).toList).tokens keys := by
  induction keys with
  | nil => exact absurd rfl hne
  | cons key keys ih =>
      obtain ⟨hclosed, hkey⟩ := derivesSortKey_write (names key List.mem_cons_self)
      cases keys with
      | nil => exact ⟨hclosed, .last hkey⟩
      | cons next keys =>
          obtain ⟨hothers, derives⟩ := ih (List.cons_ne_nil _ _) fun other hother =>
            names other (List.mem_cons_of_mem _ hother)
          have htext : (writeAll (key :: next :: keys)).toList =
              key.write.toList ++ ',' :: ' ' :: (writeAll (next :: keys)).toList := by
            simp [writeAll, String.toList_intercalate]
          rw [htext, Scan.opened_of_append_comma_iff _ hclosed,
            Scan.tokens_of_append_comma _ hclosed]
          exact ⟨hothers, .cons hkey rfl (derives.shift _)⟩

/-- The canonical text of an order stands for the order, if the name of every column is one word by
which the catalog finds the column. -/
theorem ofText_writeAll (names : ∀ column ∈ catalog.columns, catalog.FindsName column)
    (columns : ∀ key ∈ keys, key.column ∈ catalog.columns) :
    ofText catalog (writeAll keys) = .ok keys := by
  rw [ofText, ofStream_eq_ok_iff_derivesOrder]
  by_cases hempty : keys = []
  · subst hempty
    have hnothing : Scan.of 0 (writeAll []).toList = Scan.empty := Scan.of_nil 0
    rw [TokenStream.ofText, hnothing]
    exact ⟨rfl, .inl ⟨rfl, rfl⟩⟩
  · obtain ⟨hclosed, derives⟩ := derivesSortKeys_writeAll hempty fun key hkey =>
      names key.column (columns key hkey)
    exact ⟨TokenStream.opened_eq_none_iff.2 hclosed, .inr derives⟩

/-- An order by a column that is called like a direction, twice, and by one whose other name is a
word for a direction. -/
def stairsOrder : List SortKey :=
  [⟨⟨"asc", .integer, [], false, false⟩, .descending⟩,
    ⟨⟨"step", .string, ["descending"], false, false⟩, .ascending⟩,
    ⟨⟨"asc", .integer, [], false, false⟩, .ascending⟩]

theorem ofText_writeAll_stairs :
    writeAll stairsOrder = "asc desc, step asc, asc asc" ∧
      ofText stairs (writeAll stairsOrder) = .ok stairsOrder := by
  refine ⟨by decide +kernel, ofText_writeAll (fun column hcolumn => ?_) (by decide +kernel)⟩
  have hword : column.IsWord := by
    refine ⟨0, ?_⟩
    revert column
    decide +kernel
  exact hword.findsName hcolumn

/-- That a name makes one identifier is not enough: the blank ahead of a word is lost, and with it
the name of the column. -/
theorem not_ofText_writeAll_of_one_identifier :
    ¬∀ (catalog : Catalog) (keys : List SortKey),
      (∀ column ∈ catalog.columns, ∃ text position,
        (TokenStream.ofText column.name .filter).tokens = [⟨.identifier, text, position⟩]) →
      (∀ key ∈ keys, key.column ∈ catalog.columns) →
      ofText catalog (writeAll keys) = .ok keys := by
  have words : ∀ column ∈ Filter.spaced.columns, ∃ text position,
      (TokenStream.ofText column.name .filter).tokens = [⟨.identifier, text, position⟩] := by
    intro column hcolumn
    refine ⟨"id", 1, ?_⟩
    revert column
    decide +kernel
  have hread : ofText Filter.spaced
      (writeAll [⟨⟨" id", .integer, ["x"], false, false⟩, .ascending⟩]) =
        .error ⟨" id asc", .orderBy, .unknownColumn "id" 1⟩ := by
    cbv
  intro h
  rw [h Filter.spaced _ words (by decide +kernel)] at hread
  cases hread

end SortKey

end RecordQuery
