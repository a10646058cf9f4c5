import RecordQuery.Proofs.Catalog.Names
import RecordQuery.Token.Stream

/-!
# Names in queries

A canonical name may be any text, so it need not be a word that a query can use. It is one if it is
scanned as one identifier with the name for its text (`Column.IsWord`). It is enough for finding the
column if it is scanned as one identifier that is some name of the column (`Catalog.FindsName`).
-/

namespace RecordQuery

namespace Scan

theorem closed_of_tokens_eq {position place : Nat} {cs text : List Char}
    (h : (of position cs).tokens = [⟨.identifier, String.ofList text, place⟩]) :
    text.length ≤ cs.length ∧ (text.length = cs.length → (of position cs).opened = none) := by
  fun_induction of position cs with
  | case1 position => cases h
  | case2 position c cs hc ih =>
      rcases ih h with ⟨hle, -⟩
      rw [List.length_cons]
      omega
  | case3 position c cs hc what htake => cases h
  | case4 position c cs hc l rest htake ih =>
      have hlength : (c :: cs).length = l.width + rest.length := by
        rw [← Lexeme.source_append_of_take htake, List.length_append, Lexeme.width]
      rw [tokens_cons] at h
      cases l with
      | plain kind word =>
          rcases List.cons.inj h with ⟨htoken, -⟩
          have hword : word = text := String.ofList_injective (Token.mk.inj htoken).2.1
          subst hword
          rw [hlength, Lexeme.width, Lexeme.source]
          refine ⟨Nat.le_add_right _ _, fun hall => ?_⟩
          obtain rfl : rest = [] := List.eq_nil_of_length_eq_zero (by omega)
          rw [of_nil]
          rfl
      | quoted content =>
          rcases List.cons.inj h with ⟨htoken, -⟩
          have hkind := (Token.mk.inj htoken).1
          cases hkind
      | key name =>
          rcases List.cons.inj h with ⟨htoken, -⟩
          have hkind := (Token.mk.inj htoken).1
          cases hkind

end Scan

namespace Column

/-- The name of the column is a word: as a query, it is one identifier, with the name for its
text. -/
def IsWord (column : Column) : Prop :=
  ∃ position, (TokenStream.ofText column.name .filter).tokens =
    [⟨.identifier, column.name, position⟩]

theorem IsWord.closed {column : Column} (h : column.IsWord) :
    (Scan.of 0 column.name.toList).opened = none := by
  rcases h with ⟨position, htokens⟩
  have hscan : (Scan.of 0 column.name.toList).tokens =
      [⟨.identifier, String.ofList column.name.toList, position⟩] := by
    rw [String.ofList_toList]
    exact htokens
  exact (Scan.closed_of_tokens_eq hscan).2 rfl

end Column

/-- The name of the column is, as a query, one identifier by which the catalog finds the column. -/
structure Catalog.FindsName (catalog : Catalog) (column : Column) : Prop where
  closed : (TokenStream.ofText column.name .filter).pendingFault = none
  found : ∃ token, (TokenStream.ofText column.name .filter).tokens = [token] ∧
    token.kind = .identifier ∧ catalog.resolve token.text = some column

/-- What is scanned of the name: a closed text with one token, which names the column. -/
theorem Catalog.FindsName.scan {catalog : Catalog} {column : Column}
    (h : catalog.FindsName column) :
    (Scan.of 0 column.name.toList).opened = none ∧
      ∃ token, (Scan.of 0 column.name.toList).tokens = [token] ∧ token.kind = .identifier ∧
        catalog.resolve token.text = some column :=
  ⟨TokenStream.opened_eq_none_iff.1 (TokenStream.pendingFault_eq_none_iff.1 h.closed), h.found⟩

theorem Column.IsWord.findsName {catalog : Catalog} {column : Column} (h : column.IsWord)
    (hcolumn : column ∈ catalog.columns) : catalog.FindsName column := by
  obtain ⟨place, htokens⟩ := id h
  refine ⟨?_, _, htokens, rfl, Catalog.resolve_of_mem hcolumn List.mem_cons_self⟩
  exact TokenStream.pendingFault_eq_none_iff.2 (TokenStream.opened_eq_none_iff.2 h.closed)

end RecordQuery
