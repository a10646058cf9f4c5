import RecordQuery.Catalog.Column
import RecordQuery.Text.WhiteSpace

/-!
# Catalogs

A host declares the columns of a model, and a limit on the number of literals in a query. When the
declaration is read, the names of its columns, aliases included, are entered into an index one after
another: each in lower case, with the number of the column that it belongs to. A declaration makes a
catalog if no column has a blank name and no name is in the index before it is entered;
`Catalog.ofDeclaration` reports the first entry that offends. What a query names is looked up in the
index.
-/

namespace RecordQuery

inductive DeclarationError where
  | duplicateName (name : String)
  | emptyName
  deriving DecidableEq

namespace DeclarationError

def message : DeclarationError → String
  | .duplicateName name => "column name or alias '" ++ name ++ "' is declared more than once"
  | .emptyName => "column name must not be empty"

end DeclarationError

structure Declaration where
  model : String
  /-- The largest number of literals in a query; without one there is no limit. -/
  maxParameters : Option Nat := none
  columns : List Column

/-- Names in lower case, each with the number of the column that it belongs to. -/
structure NameIndex where
  entries : List (String × Nat)
  deriving DecidableEq

namespace NameIndex

def empty : NameIndex := ⟨[]⟩

def get? (index : NameIndex) (name : String) : Option Nat :=
  index.entries.lookup name

def insert (index : NameIndex) (name : String) (number : Nat) : NameIndex :=
  ⟨(name, number) :: index.entries⟩

@[simp] theorem get?_empty (name : String) : empty.get? name = none := rfl

theorem get?_insert (index : NameIndex) (name : String) (number : Nat) (other : String) :
    (index.insert name number).get? other =
      if other = name then some number else index.get? other := by
  rw [get?, insert, List.lookup_cons]
  by_cases h : other = name
  · rw [if_pos h, beq_iff_eq.2 h]
  · rw [if_neg h, beq_eq_false_iff_ne.2 h, get?]

/-- Enters the names of the column with the given number, unless one of them is in the index. -/
def enterNames (number : Nat) (index : NameIndex) :
    List String → Except DeclarationError NameIndex
  | [] => .ok index
  | name :: names =>
    match index.get? (Text.lower name) with
    | some _ => .error (.duplicateName name)
    | none => enterNames number (index.insert (Text.lower name) number) names

def enterColumns (number : Nat) (index : NameIndex) :
    List Column → Except DeclarationError NameIndex
  | [] => .ok index
  | column :: columns =>
    if Text.isBlank column.name then .error .emptyName
    else do
      let index ← enterNames number index column.names
      enterColumns (number + 1) index columns

end NameIndex

namespace Declaration

/-- The index of all names, or what is wrong with the declaration. -/
def nameIndex (d : Declaration) : Except DeclarationError NameIndex :=
  NameIndex.enterColumns 0 .empty d.columns

end Declaration

/-- A declaration whose names are visible and all different, with the index of these names. -/
structure Catalog extends Declaration where
  index : NameIndex
  indexed : toDeclaration.nameIndex = .ok index

namespace Catalog

def ofDeclaration (d : Declaration) : Except DeclarationError Catalog :=
  match h : d.nameIndex with
  | .ok index => .ok ⟨d, index, h⟩
  | .error e => .error e

def resolve (c : Catalog) (name : String) : Option Column :=
  (c.index.get? (Text.lower name)).bind fun number => c.columns[number]?

theorem toDeclaration_of_ofDeclaration {d : Declaration} {c : Catalog}
    (h : ofDeclaration d = .ok c) : c.toDeclaration = d := by
  unfold ofDeclaration at h
  split at h
  · injection h with h
    rw [← h]
  · cases h

theorem mem_columns_of_resolve {c : Catalog} {name : String} {column : Column}
    (h : c.resolve name = some column) : column ∈ c.columns := by
  rcases Option.bind_eq_some_iff.1 h with ⟨number, -, hcolumn⟩
  exact List.mem_of_getElem? hcolumn

theorem index_congr {c c' : Catalog} (h : c'.columns = c.columns) : c'.index = c.index := by
  have hindex : c'.toDeclaration.nameIndex = c.toDeclaration.nameIndex := by
    rw [Declaration.nameIndex, h, Declaration.nameIndex]
  rw [c.indexed, c'.indexed] at hindex
  exact Except.ok.inj hindex

end Catalog

end RecordQuery
