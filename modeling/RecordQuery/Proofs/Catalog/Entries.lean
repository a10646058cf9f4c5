import RecordQuery.Proofs.Catalog.Names
import RecordQuery.Proofs.Text.Casing

/-!
# The entries of a declaration

A declaration is read entry by entry: for every column its beginning, where the canonical name is
judged, and then its names one after another. `Entry.Offends` says when an entry cannot stand behind
others, without reference to the index that is filled while reading. A declaration makes a catalog
if no entry offends, and otherwise the first that does is reported; the catalog finds a column by
exactly the names that the declaration gives it, in whatever case (`Catalog.isIndex_ofDeclaration`).
-/

namespace RecordQuery

namespace Declaration

inductive Entry where
  /-- A column begins, and this is its canonical name. -/
  | beginning (name : String)
  /-- A name or an alias of a column. -/
  | naming (name : String)

namespace Entry

/-- The entries of a column: its beginning, then its names. -/
def ofColumn (column : Column) : List Entry :=
  .beginning column.name :: column.names.map .naming

/-- An entry that cannot stand behind others: a column without a visible name, or a name that
one of the others is in another case. -/
def Offends (before : List Entry) : Entry → Prop
  | .beginning name => ∀ c ∈ name.toList, Text.isWhiteSpace c = true
  | .naming name => ∃ earlier, .naming earlier ∈ before ∧ Text.lower earlier = Text.lower name

def error : Entry → DeclarationError
  | .beginning _ => .emptyName
  | .naming name => .duplicateName name

def Clear : (before entries : List Entry) → Prop
  | _, [] => True
  | before, entry :: entries => ¬entry.Offends before ∧ Clear (before ++ [entry]) entries

def IsFirstOffence (before entries : List Entry) (entry : Entry) : Prop :=
  ∃ first rest, entries = first ++ entry :: rest ∧ Clear before first ∧
    entry.Offends (before ++ first)

def Reports {α : Type} (before entries : List Entry) : Except DeclarationError α → Prop
  | .ok _ => Clear before entries
  | .error e => ∃ entry, IsFirstOffence before entries entry ∧ entry.error = e

theorem isFirstOffence_cons {before entries : List Entry} {head entry : Entry} :
    IsFirstOffence before (head :: entries) entry ↔
      head.Offends before ∧ head = entry ∨
        ¬head.Offends before ∧ IsFirstOffence (before ++ [head]) entries entry := by
  constructor
  · rintro ⟨first, rest, heq, clear, offends⟩
    cases first with
    | nil =>
        cases heq
        exact .inl ⟨by simpa using offends, rfl⟩
    | cons other first =>
        cases heq
        exact .inr ⟨clear.1, first, rest, rfl, clear.2, by simpa using offends⟩
  · rintro (⟨offends, rfl⟩ | ⟨hhead, first, rest, rfl, clear, offends⟩)
    · exact ⟨[], entries, rfl, trivial, by simpa using offends⟩
    · exact ⟨head :: first, rest, rfl, ⟨hhead, clear⟩, by simpa using offends⟩

theorem IsFirstOffence.not_clear {before entries : List Entry} {entry : Entry}
    (h : IsFirstOffence before entries entry) : ¬Clear before entries := by
  induction entries generalizing before with
  | nil =>
      rcases h with ⟨first, rest, heq, -⟩
      exact absurd heq (by simp)
  | cons head entries ih =>
      rintro ⟨hhead, clear⟩
      rcases isFirstOffence_cons.1 h with ⟨offends, -⟩ | ⟨-, h⟩
      · exact hhead offends
      · exact ih h clear

theorem IsFirstOffence.unique {before entries : List Entry} {entry other : Entry}
    (h : IsFirstOffence before entries entry) (hother : IsFirstOffence before entries other) :
    entry = other := by
  induction entries generalizing before with
  | nil =>
      rcases h with ⟨first, rest, heq, -⟩
      exact absurd heq (by simp)
  | cons head entries ih =>
      rcases isFirstOffence_cons.1 h with ⟨offends, rfl⟩ | ⟨hhead, h⟩ <;>
        rcases isFirstOffence_cons.1 hother with ⟨offends', rfl⟩ | ⟨hhead', hother⟩
      · rfl
      · exact absurd offends hhead'
      · exact absurd offends' hhead
      · exact ih h hother

section Reports

variable {α : Type} {before entries : List Entry} {result : Except DeclarationError α}

theorem reports_of_offends {entry : Entry} (entries : List Entry) (h : entry.Offends before) :
    Reports (α := α) before (entry :: entries) (.error entry.error) :=
  ⟨entry, isFirstOffence_cons.2 (.inl ⟨h, rfl⟩), rfl⟩

theorem Reports.cons {entry : Entry} (hentry : ¬entry.Offends before)
    (h : Reports (before ++ [entry]) entries result) :
    Reports before (entry :: entries) result := by
  cases result with
  | ok _ => exact ⟨hentry, h⟩
  | error e =>
      rcases h with ⟨other, first, rfl⟩
      exact ⟨other, isFirstOffence_cons.2 (.inr ⟨hentry, first⟩), rfl⟩

theorem Reports.eq_error_iff {e : DeclarationError} (h : Reports before entries result) :
    result = .error e ↔ ∃ entry, IsFirstOffence before entries entry ∧ entry.error = e := by
  cases result with
  | ok _ =>
      refine iff_of_false nofun ?_
      rintro ⟨entry, first, -⟩
      exact first.not_clear h
  | error other =>
      rcases h with ⟨entry, first, rfl⟩
      constructor
      · intro heq
        cases heq
        exact ⟨entry, first, rfl⟩
      · rintro ⟨entry', first', rfl⟩
        rw [first.unique first']

theorem Reports.eq_ok_iff (h : Reports before entries result) :
    (∃ a, result = .ok a) ↔ Clear before entries := by
  cases result with
  | ok a => exact iff_of_true ⟨a, rfl⟩ h
  | error e =>
      rcases h with ⟨entry, first, -⟩
      exact iff_of_false nofun first.not_clear

end Reports

def lowerName? : Entry → Option String
  | .beginning _ => none
  | .naming name => some (Text.lower name)

theorem offends_naming_iff {before : List Entry} {name : String} :
    (naming name).Offends before ↔ Text.lower name ∈ before.filterMap lowerName? := by
  rw [List.mem_filterMap]
  constructor
  · rintro ⟨earlier, hmem, hlower⟩
    exact ⟨.naming earlier, hmem, congrArg some hlower⟩
  · rintro ⟨entry, hmem, hlower⟩
    cases entry with
    | beginning _ => cases hlower
    | naming earlier => exact ⟨earlier, hmem, Option.some.inj hlower⟩

theorem offends_beginning_iff {before : List Entry} {name : String} :
    (beginning name).Offends before ↔ Text.isBlank name = true :=
  List.all_eq_true.symm

end Entry

section Reading

open Entry NameIndex

variable {before : List Entry} {index : NameIndex}

def Lists (index : NameIndex) (before : List Entry) : Prop :=
  ∀ name, index.get? name = none ↔ name ∉ before.filterMap lowerName?

theorem lists_empty : Lists .empty [] := by
  intro name
  simp

theorem Lists.of_beginning (h : Lists index before) (name : String) :
    Lists index (before ++ [.beginning name]) := by
  intro other
  rw [h other, List.filterMap_append]
  simp [lowerName?]

theorem Lists.of_naming (h : Lists index before) (name : String) (number : Nat) :
    Lists (index.insert (Text.lower name) number) (before ++ [.naming name]) := by
  intro other
  rw [get?_insert, List.filterMap_append]
  by_cases heq : other = Text.lower name
  · simp [heq, lowerName?]
  · simp [heq, lowerName?, h other]

/-- Names are entered one after another, and what stands behind them is read if none offends. -/
theorem reports_enterNames {number : Nat} {names : List String} {entries : List Entry}
    {read : NameIndex → Except DeclarationError NameIndex} (h : Lists index before)
    (hbehind : ∀ entered, Lists entered (before ++ names.map .naming) →
      Reports (before ++ names.map .naming) entries (read entered)) :
    Reports before (names.map .naming ++ entries)
      ((enterNames number index names).bind read) := by
  induction names generalizing before index with
  | nil =>
      rw [List.map_nil, List.append_nil] at hbehind
      exact hbehind index h
  | cons name names ih =>
      rw [List.map_cons, List.cons_append, enterNames]
      cases hget : index.get? (Text.lower name) with
      | some _ =>
          apply reports_of_offends
          rw [offends_naming_iff]
          by_contra hnot
          rw [(h _).2 hnot] at hget
          cases hget
      | none =>
          apply Reports.cons (mt offends_naming_iff.1 ((h _).1 hget))
          apply ih (h.of_naming name number)
          rw [List.append_assoc]
          exact hbehind

theorem reports_enterColumns {number : Nat} {columns : List Column} (h : Lists index before) :
    Reports before (columns.flatMap ofColumn) (enterColumns number index columns) := by
  induction columns generalizing before index number with
  | nil => exact trivial
  | cons column columns ih =>
      rw [List.flatMap_cons, ofColumn, List.cons_append, enterColumns]
      by_cases hblank : Text.isBlank column.name = true
      · rw [if_pos hblank]
        exact reports_of_offends _ (offends_beginning_iff.2 hblank)
      · rw [if_neg hblank]
        apply Reports.cons (mt offends_beginning_iff.1 hblank)
        exact reports_enterNames (h.of_beginning column.name) fun _ hentered => ih hentered

end Reading

def entries (d : Declaration) : List Entry :=
  d.columns.flatMap Entry.ofColumn

theorem reports_nameIndex (d : Declaration) : Entry.Reports [] d.entries d.nameIndex :=
  reports_enterColumns lists_empty

namespace Entry

/-- No entry offends if every column has a visible name, and no name occurs twice or is taken. -/
theorem clear_iff {before entries : List Entry} :
    Clear before entries ↔
      (∀ name, .beginning name ∈ entries → ∃ c ∈ name.toList, Text.isWhiteSpace c = false) ∧
        (entries.filterMap lowerName?).Nodup ∧
          ∀ s ∈ entries.filterMap lowerName?, s ∉ before.filterMap lowerName? := by
  induction entries generalizing before with
  | nil => simp [Clear]
  | cons entry entries ih =>
      rw [Clear, ih, List.filterMap_append]
      cases entry with
      | beginning name =>
          have hvisible : ¬(beginning name).Offends before ↔
              ∃ c ∈ name.toList, Text.isWhiteSpace c = false := by
            simp [Offends]
          have hnames : ([beginning name].filterMap lowerName?) = [] := rfl
          rw [hvisible, hnames, List.append_nil, List.filterMap_cons_none rfl]
          simp only [List.mem_cons, Entry.beginning.injEq]
          grind
      | naming name =>
          have hnames : ([naming name].filterMap lowerName?) = [Text.lower name] := rfl
          have hcons : (naming name :: entries).filterMap lowerName? =
              Text.lower name :: entries.filterMap lowerName? := rfl
          rw [offends_naming_iff, hnames, hcons, List.nodup_cons]
          simp only [List.mem_cons, List.mem_append, reduceCtorEq, false_or]
          grind

end Entry

theorem lowerNames_entries (d : Declaration) :
    d.entries.filterMap Entry.lowerName? = (d.columns.flatMap Column.names).map Text.lower := by
  have hcolumn : ∀ column : Column,
      (Entry.ofColumn column).filterMap Entry.lowerName? = column.names.map Text.lower := by
    intro column
    rw [Entry.ofColumn, List.filterMap_cons_none rfl, List.filterMap_map]
    exact congrFun (List.filterMap_eq_map (f := Text.lower)) column.names
  rw [entries, List.filterMap_flatMap, List.map_flatMap]
  simp only [hcolumn]

theorem beginning_mem_entries {d : Declaration} {name : String} :
    .beginning name ∈ d.entries ↔ ∃ column ∈ d.columns, column.name = name := by
  simp [entries, Entry.ofColumn, eq_comm]

/-- A declaration makes a catalog if every column has a visible name and all names are different. -/
theorem nameIndex_eq_ok_iff {d : Declaration} :
    (∃ index, d.nameIndex = .ok index) ↔
      (∀ column ∈ d.columns, ∃ c ∈ column.name.toList, Text.isWhiteSpace c = false) ∧
        ((d.columns.flatMap Column.names).map Text.lower).Nodup := by
  rw [(reports_nameIndex d).eq_ok_iff, Entry.clear_iff, lowerNames_entries]
  simp [beginning_mem_entries]

end Declaration

namespace Catalog

/-- A catalog finds the columns of a declaration by their names: by any name or alias of a column,
in any case, that column is found and no other; by anything else nothing is found. -/
structure IsIndexOf (c : Catalog) (d : Declaration) : Prop where
  declared : c.toDeclaration = d
  /-- The index gives the number of the column that a name in lower case belongs to. -/
  get?_iff : ∀ name number, c.index.get? name = some number ↔
    ∃ column, d.columns[number]? = some column ∧ ∃ n ∈ column.names, Text.lower n = name
  resolve_eq : ∀ name, c.resolve name =
    (c.index.get? (Text.lower name)).bind fun number => d.columns[number]?
  resolve_iff : ∀ name column, c.resolve name = some column ↔
    column ∈ d.columns ∧ ∃ n ∈ column.names, Text.lower n = Text.lower name
  /-- The name is one of at most one column of the declaration. -/
  unique : ∀ (name : String) (i j : Nat) (first second : Column),
    d.columns[i]? = some first → d.columns[j]? = some second →
      (∃ n ∈ first.names, Text.lower n = Text.lower name) →
        (∃ n ∈ second.names, Text.lower n = Text.lower name) → i = j
  found : ∀ column ∈ d.columns, ∀ n ∈ column.names, ∀ name, Text.lower name = Text.lower n →
    c.resolve name = some column
  resolve_lower : ∀ name, c.resolve (Text.lower name) = c.resolve name

theorem ofDeclaration_eq_error_iff {d : Declaration} {e : DeclarationError} :
    ofDeclaration d = .error e ↔ d.nameIndex = .error e := by
  unfold ofDeclaration
  split <;> next h => simp [h]

theorem exists_ofDeclaration_eq_ok_iff {d : Declaration} :
    (∃ c, ofDeclaration d = .ok c) ↔ ∃ index, d.nameIndex = .ok index := by
  unfold ofDeclaration
  split <;> next h => simp [h]

theorem isIndexOf (c : Catalog) : c.IsIndexOf c.toDeclaration where
  declared := rfl
  get?_iff := c.isOf_columns
  resolve_eq _ := rfl
  resolve_iff _ _ := resolve_eq_some_iff
  unique name i j first second hi hj hfirst hsecond := by
    have hnumber := (c.isOf_columns _ i).2 ⟨first, hi, hfirst⟩
    have hother := (c.isOf_columns _ j).2 ⟨second, hj, hsecond⟩
    exact Option.some.inj (hnumber.symm.trans hother)
  found column hcolumn n hn name hlower := resolve_eq_some_iff.2 ⟨hcolumn, n, hn, hlower.symm⟩
  resolve_lower name := by
    rw [resolve, resolve, Text.lower_lower]

/-- A declaration makes a catalog exactly if every column has a visible name and all names, aliases
included, are different in lower case. Otherwise the first entry that offends is reported. The
catalog finds each column by its names, in any case, and by nothing else. -/
theorem isIndex_ofDeclaration (d : Declaration) :
    ((∃ c, ofDeclaration d = .ok c) ↔
      (∀ column ∈ d.columns, ∃ c ∈ column.name.toList, Text.isWhiteSpace c = false) ∧
        ((d.columns.flatMap Column.names).map Text.lower).Nodup) ∧
    (∀ e, ofDeclaration d = .error e ↔
      ∃ entry, Declaration.Entry.IsFirstOffence [] d.entries entry ∧ entry.error = e) ∧
    ∀ c, ofDeclaration d = .ok c → c.IsIndexOf d := by
  refine ⟨?_, fun e => ?_, fun c h => ?_⟩
  · rw [exists_ofDeclaration_eq_ok_iff, Declaration.nameIndex_eq_ok_iff]
  · rw [ofDeclaration_eq_error_iff, (Declaration.reports_nameIndex d).eq_error_iff]
  · rw [← toDeclaration_of_ofDeclaration h]
    exact c.isIndexOf

theorem isIndex_ofDeclaration_greek :
    ∃ c, ofDeclaration ⟨"m", none, [⟨"ΟΔΟΣ", .string, ["Straße"], false, false⟩,
        ⟨"İd", .integer, ["id"], false, false⟩]⟩ = .ok c ∧
      c.resolve "οδος" = some ⟨"ΟΔΟΣ", .string, ["Straße"], false, false⟩ ∧
      c.resolve "ID" = some ⟨"İd", .integer, ["id"], false, false⟩ ∧
      c.resolve "οδοσ" = none := by
  rcases isIndex_ofDeclaration ⟨"m", none, [⟨"ΟΔΟΣ", .string, ["Straße"], false, false⟩,
    ⟨"İd", .integer, ["id"], false, false⟩]⟩ with ⟨hok, -, hindex⟩
  have hvisible : ∀ column ∈ [(⟨"ΟΔΟΣ", .string, ["Straße"], false, false⟩ : Column),
      ⟨"İd", .integer, ["id"], false, false⟩],
        ∃ c ∈ column.name.toList, Text.isWhiteSpace c = false := by
    intro column hcolumn
    rcases List.mem_pair.1 hcolumn with rfl | rfl
    · exact ⟨'Σ', by decide, by decide⟩
    · exact ⟨'d', by decide, by decide⟩
  rcases hok.2 ⟨hvisible, by decide +kernel⟩ with ⟨c, hc⟩
  have index := hindex c hc
  refine ⟨c, hc, ?_, ?_, ?_⟩
  · exact index.found _ List.mem_cons_self "ΟΔΟΣ" List.mem_cons_self _ (by decide +kernel)
  · exact index.found _ (List.mem_cons_of_mem _ List.mem_cons_self) "id"
      (List.mem_cons_of_mem _ List.mem_cons_self) _ (by decide +kernel)
  · rw [Option.eq_none_iff_forall_ne_some]
    intro column hcolumn
    rcases (index.resolve_iff _ _).1 hcolumn with ⟨hmem, n, hn, hlower⟩
    rcases List.mem_pair.1 hmem with rfl | rfl
    · rcases List.mem_pair.1 hn with rfl | rfl
      · exact absurd hlower (by decide +kernel)
      · exact absurd hlower (by decide +kernel)
    · rcases List.mem_pair.1 hn with rfl | rfl
      · exact absurd hlower (by decide +kernel)
      · exact absurd hlower (by decide +kernel)

end Catalog

end RecordQuery
