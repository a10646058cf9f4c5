import RecordQuery.Catalog
import RecordQuery.Json.Reader
import RecordQuery.Json.Skip

/-!
# Catalog documents

A declaration written as a JSON document. An object gives its fields by name, in any order; a field
without a meaning is passed over, a field given twice is refused, and where a field is left out its
default counts if it has one. An array gives the same fields by position and may stop before the
defaults. A type may also be an object whose one key names it and whose value is null.

The text is read straight into the declaration, so that the first problem in reading order is the
one reported, be it in the notation or in the form.
-/

namespace RecordQuery

open Json

namespace Declaration

/-- What is wrong with a text that starts with a value of another form than the one asked for: the
value's own flaw, if it is a scalar with one, and else its form. -/
def formFlaw (cs : List Char) : JsonFlaw :=
  match cs with
  | '[' :: _ => .misshapen
  | '{' :: _ => .misshapen
  | cs =>
    match readValue 0 cs with
    | .ok _ => .misshapen
    | .error flaw => flaw

def readText : Reader String := fun cs =>
  match skipBlanks cs with
  | '"' :: cs => readString cs
  | cs => .error (formFlaw cs)

def readFlag : Reader Bool := fun cs =>
  match skipBlanks cs with
  | 't' :: cs => do
    let ((), cs) ← readExactly ['r', 'u', 'e'] cs
    .ok (true, cs)
  | 'f' :: cs => do
    let ((), cs) ← readExactly ['a', 'l', 's', 'e'] cs
    .ok (false, cs)
  | cs => .error (formFlaw cs)

/-- A number as a count: an integer that is not negative. -/
def count? : JsonNumber → Option Nat
  | .integer n => if 0 ≤ n then some n.natAbs else none
  | .float _ => none

def readCountNumber (negative : Bool) : Reader (Option Nat) := fun cs => do
  let (n, cs) ← readNumber negative cs
  match count? n with
  | some count => .ok (some count, cs)
  | none => .error .misshapen

def readLimit : Reader (Option Nat) := fun cs =>
  match skipBlanks cs with
  | 'n' :: cs => do
    let ((), cs) ← readExactly ['u', 'l', 'l'] cs
    .ok (none, cs)
  | '-' :: cs => readCountNumber true cs
  | c :: cs =>
    if c.isDigit then readCountNumber false (c :: cs) else .error (formFlaw (c :: cs))
  | [] => .error .truncated

def readList {α : Type} (item : Reader α) : Reader (List α) := fun cs =>
  match skipBlanks cs with
  | '[' :: cs => readArray item cs
  | cs => .error (formFlaw cs)

def readNull : Reader Unit := fun cs =>
  match skipBlanks cs with
  | 'n' :: cs => readExactly ['u', 'l', 'l'] cs
  | cs => .error (formFlaw cs)

def typeNamed (name : String) : Except JsonFlaw FieldType :=
  match FieldType.ofName? name with
  | some type => .ok type
  | none => .error .misshapen

/-- Reads a type: its name, or an object with the name as its one key. The name is held against the
types before what follows it is read. -/
def readType : Reader FieldType := fun cs =>
  match skipBlanks cs with
  | [] => .error .truncated
  | '"' :: cs => do
    let (name, cs) ← readString cs
    .ok (← typeNamed name, cs)
  | '{' :: cs => do
    let (name, cs) ← readKey (skipBlanks cs)
    let type ← typeNamed name
    let ((), cs) ← readNull (← readColon cs)
    .ok (type, ← endObject cs)
  | _ => .error .malformed

/-- Reads the value of a field that may be given once; `given` is what has been read for it. -/
def readOnce {α : Type} (given : Option α) (value : Reader α) : Reader (Option α) := fun cs =>
  match given with
  | some _ => .error .misshapen
  | none => do
    let (x, cs) ← value (← readColon cs)
    .ok (some x, cs)

def skipField : Reader Unit := fun cs => do
  skipValue (← readColon cs)

/-- Reads an element of an array if there is one; `first` says that it would be the first. -/
def readElement? {α : Type} (first : Bool) (item : Reader α) : Reader (Option α) := fun cs => do
  match ← nextElement first cs with
  | none => .ok (none, cs)
  | some cs => do
    let (x, cs) ← item cs
    .ok (some x, cs)

def readElement {α : Type} (first : Bool) (item : Reader α) : Reader α := fun cs => do
  match ← readElement? first item cs with
  | (some x, cs) => .ok (x, cs)
  | (none, _) => .error .misshapen

structure ColumnFields where
  name : Option String := none
  type : Option FieldType := none
  aliases : Option (List String) := none
  nested : Option Bool := none
  caseInsensitive : Option Bool := none

def ColumnFields.column? (f : ColumnFields) : Option Column := do
  let name ← f.name
  let type ← f.type
  some ⟨name, type, f.aliases.getD [], f.nested.getD false, f.caseInsensitive.getD false⟩

def readColumnField (f : ColumnFields) (name : String) : Reader ColumnFields := fun cs =>
  if name == "name" then do
    let (x, cs) ← readOnce f.name readText cs
    .ok ({ f with name := x }, cs)
  else if name == "type" then do
    let (x, cs) ← readOnce f.type readType cs
    .ok ({ f with type := x }, cs)
  else if name == "aliases" then do
    let (x, cs) ← readOnce f.aliases (readList readText) cs
    .ok ({ f with aliases := x }, cs)
  else if name == "nested" then do
    let (x, cs) ← readOnce f.nested readFlag cs
    .ok ({ f with nested := x }, cs)
  else if name == "case_insensitive" then do
    let (x, cs) ← readOnce f.caseInsensitive readFlag cs
    .ok ({ f with caseInsensitive := x }, cs)
  else do
    let ((), cs) ← skipField cs
    .ok (f, cs)

def readColumn : Reader Column := fun cs =>
  match skipBlanks cs with
  | '{' :: cs => do
    let (fields, cs) ← readObject readColumnField {} cs
    match fields.column? with
    | some column => .ok (column, cs)
    | none => .error .misshapen
  | '[' :: cs => do
    let (name, cs) ← readElement true readText cs
    let (type, cs) ← readElement false readType cs
    let (aliases, cs) ← readElement? false (readList readText) cs
    let (nested, cs) ← readElement? false readFlag cs
    let (caseInsensitive, cs) ← readElement? false readFlag cs
    .ok (⟨name, type, aliases.getD [], nested.getD false, caseInsensitive.getD false⟩,
      ← endArray cs)
  | cs => .error (formFlaw cs)

structure Fields where
  model : Option String := none
  maxParameters : Option (Option Nat) := none
  columns : Option (List Column) := none

def Fields.declaration? (f : Fields) : Option Declaration := do
  let model ← f.model
  let columns ← f.columns
  some ⟨model, f.maxParameters.getD none, columns⟩

def readField (f : Fields) (name : String) : Reader Fields := fun cs =>
  if name == "model" then do
    let (x, cs) ← readOnce f.model readText cs
    .ok ({ f with model := x }, cs)
  else if name == "max_parameters" then do
    let (x, cs) ← readOnce f.maxParameters readLimit cs
    .ok ({ f with maxParameters := x }, cs)
  else if name == "columns" then do
    let (x, cs) ← readOnce f.columns (readList readColumn) cs
    .ok ({ f with columns := x }, cs)
  else do
    let ((), cs) ← skipField cs
    .ok (f, cs)

def readDeclaration : Reader Declaration := fun cs =>
  match skipBlanks cs with
  | '{' :: cs => do
    let (fields, cs) ← readObject readField {} cs
    match fields.declaration? with
    | some declaration => .ok (declaration, cs)
    | none => .error .misshapen
  | '[' :: cs => do
    let (model, cs) ← readElement true readText cs
    let (limit, cs) ← readElement? false readLimit cs
    let (columns, cs) ← readElement false (readList readColumn) cs
    .ok (⟨model, limit.getD none, columns⟩, ← endArray cs)
  | cs => .error (formFlaw cs)

def read (text : String) : Except JsonFlaw Declaration :=
  readWholeText readDeclaration text

def columnJson (c : Column) : Json :=
  ofFields [
    ("name", .string c.name),
    ("type", .string c.type.name),
    ("aliases", .array (c.aliases.map .string)),
    ("nested", .boolean c.nested),
    ("case_insensitive", .boolean c.caseInsensitive)]

def toJson (d : Declaration) : Json :=
  ofFields [
    ("model", .string d.model),
    ("max_parameters",
      match d.maxParameters with
      | some n => .number (.integer n)
      | none => .null),
    ("columns", .array (d.columns.map columnJson))]

end Declaration

inductive CatalogError where
  | declaration (e : DeclarationError)
  | document (flaw : JsonFlaw)
  deriving DecidableEq

def Catalog.ofText (text : String) : Except CatalogError Catalog :=
  match Declaration.read text with
  | .error flaw => .error (.document flaw)
  | .ok d => (Catalog.ofDeclaration d).mapError .declaration

end RecordQuery
