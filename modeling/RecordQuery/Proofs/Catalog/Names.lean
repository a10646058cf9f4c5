import RecordQuery.Catalog

/-!
# Names in a catalog

The index of a catalog is filled column by column. What it holds after some columns are their names,
each with the number of its column (`NameIndex.IsOf`): one more column keeps that
(`NameIndex.IsOf.concat`), and so do all (`NameIndex.IsOf.append`). A catalog therefore finds a
column by any name that it has (`Catalog.resolve_of_mem`), and by nothing else.
-/

namespace RecordQuery

namespace NameIndex

variable {index entered : NameIndex} {number : Nat}

/-- The names in the index are those of the columns, each with the number of its column. -/
def IsOf (index : NameIndex) (columns : List Column) : Prop :=
  ∀ name number, index.get? name = some number ↔
    ∃ column, columns[number]? = some column ∧ ∃ n ∈ column.names, Text.lower n = name

theorem isOf_empty : empty.IsOf [] := by
  intro name number
  simp

theorem enterNames_cons_eq_ok_iff {name : String} {names : List String} :
    enterNames number index (name :: names) = .ok entered ↔
      index.get? (Text.lower name) = none ∧
        enterNames number (index.insert (Text.lower name) number) names = .ok entered := by
  rw [enterNames]
  cases index.get? (Text.lower name) <;> simp

theorem enterColumns_cons_eq_ok {column : Column} {columns : List Column}
    (h : enterColumns number index (column :: columns) = .ok entered) :
    ∃ next, enterNames number index column.names = .ok next ∧
      enterColumns (number + 1) next columns = .ok entered := by
  rw [enterColumns] at h
  split at h
  · cases h
  · cases hnames : enterNames number index column.names with
    | error e =>
        rw [hnames] at h
        cases h
    | ok next =>
        rw [hnames] at h
        exact ⟨next, rfl, h⟩

theorem get?_eq_none_of_enterNames {names : List String}
    (h : enterNames number index names = .ok entered) :
    ∀ name ∈ names, index.get? (Text.lower name) = none := by
  induction names generalizing index with
  | nil => exact List.forall_mem_nil _
  | cons first names ih =>
      rcases enterNames_cons_eq_ok_iff.1 h with ⟨hfirst, hnames⟩
      refine List.forall_mem_cons.2 ⟨hfirst, fun name hname => ?_⟩
      have hnone := ih hnames name hname
      rw [get?_insert] at hnone
      split at hnone
      · cases hnone
      · exact hnone

theorem get?_of_enterNames {names : List String}
    (h : enterNames number index names = .ok entered) (name : String) :
    entered.get? name =
      if name ∈ names.map Text.lower then some number else index.get? name := by
  induction names generalizing index with
  | nil =>
      cases h
      rfl
  | cons first names ih =>
      rcases enterNames_cons_eq_ok_iff.1 h with ⟨-, hnames⟩
      rw [ih hnames, get?_insert, List.map_cons]
      by_cases hmem : name ∈ names.map Text.lower
      · rw [if_pos hmem, if_pos (List.mem_cons_of_mem _ hmem)]
      · simp only [List.mem_cons, hmem, or_false, if_false]

theorem IsOf.concat {columns : List Column} {column : Column} (h : index.IsOf columns)
    (hnames : enterNames columns.length index column.names = .ok entered) :
    entered.IsOf (columns ++ [column]) := by
  intro name number
  rw [get?_of_enterNames hnames]
  by_cases hname : name ∈ column.names.map Text.lower
  · rw [if_pos hname]
    rcases List.mem_map.1 hname with ⟨n, hn, hlower⟩
    constructor
    · intro hnumber
      cases hnumber
      exact ⟨column, by simp, n, hn, hlower⟩
    · rintro ⟨other, hother, hnamed⟩
      by_cases hlt : number < columns.length
      · rw [List.getElem?_append_left hlt] at hother
        have hsome := (h name number).2 ⟨other, hother, hnamed⟩
        rw [← hlower, get?_eq_none_of_enterNames hnames n hn] at hsome
        cases hsome
      · have hle := (List.getElem?_eq_some_iff.1 hother).1
        rw [List.length_append, List.length_singleton] at hle
        exact congrArg some (by omega)
  · rw [if_neg hname, h name number]
    constructor
    · rintro ⟨other, hother, hnamed⟩
      have hlt := (List.getElem?_eq_some_iff.1 hother).1
      exact ⟨other, (List.getElem?_append_left hlt).trans hother, hnamed⟩
    · rintro ⟨other, hother, hnamed⟩
      by_cases hlt : number < columns.length
      · exact ⟨other, (List.getElem?_append_left hlt).symm.trans hother, hnamed⟩
      · rw [List.getElem?_append_right (by omega)] at hother
        obtain rfl : other = column := by
          simpa using List.mem_of_getElem? hother
        exact absurd (List.mem_map.2 hnamed) hname

theorem IsOf.append {columns more : List Column} (h : index.IsOf columns)
    (hmore : enterColumns columns.length index more = .ok entered) :
    entered.IsOf (columns ++ more) := by
  induction more generalizing columns index with
  | nil =>
      cases hmore
      rwa [List.append_nil]
  | cons column more ih =>
      rcases enterColumns_cons_eq_ok hmore with ⟨next, hnames, hrest⟩
      have hnext := h.concat hnames
      rw [List.append_cons]
      apply ih hnext
      rwa [List.length_append, List.length_singleton]

end NameIndex

namespace Catalog

variable {catalog : Catalog} {column : Column} {name : String}

theorem isOf_columns (catalog : Catalog) : catalog.index.IsOf catalog.columns :=
  NameIndex.isOf_empty.append catalog.indexed

theorem resolve_eq_some_iff : catalog.resolve name = some column ↔
    column ∈ catalog.columns ∧ ∃ n ∈ column.names, Text.lower n = Text.lower name := by
  rw [resolve, Option.bind_eq_some_iff]
  constructor
  · rintro ⟨number, hnumber, hcolumn⟩
    rcases (catalog.isOf_columns _ _).1 hnumber with ⟨other, hother, hnamed⟩
    rw [hcolumn] at hother
    cases hother
    exact ⟨List.mem_of_getElem? hcolumn, hnamed⟩
  · rintro ⟨hmem, hnamed⟩
    rcases List.mem_iff_getElem?.1 hmem with ⟨number, hcolumn⟩
    exact ⟨number, (catalog.isOf_columns _ _).2 ⟨column, hcolumn, hnamed⟩, hcolumn⟩

theorem resolve_of_mem (hcolumn : column ∈ catalog.columns) (hname : name ∈ column.names) :
    catalog.resolve name = some column :=
  resolve_eq_some_iff.2 ⟨hcolumn, name, hname, rfl⟩

end Catalog

end RecordQuery
