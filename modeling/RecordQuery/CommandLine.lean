import RecordQuery.Check
import RecordQuery.Manual

/-!
# The command line

What the arguments of the program ask for, and what it prints. There are three commands:

    check FILTER --catalog FILE [--order-by KEYS] [--input JSON]
          [--page-size N] [--page N] [--pretty] [--syntax-only]
    docs
    doc CATEGORY

An option that takes a value takes the next argument or what stands behind an equals sign. Reading
files and the standard input is left to the program.
-/

namespace RecordQuery

namespace CommandLine

structure CheckArguments where
  filter : Option String := none
  catalog : Option String := none
  order : Option String := none
  records : Option String := none
  pageSize : Option Nat := none
  pageNumber : Nat := 0
  pretty : Bool := false
  queryOnly : Bool := false

inductive Command where
  | check (arguments : CheckArguments) (catalogFile : String)
  | overview
  | topic (name : String)

inductive ValueOption where
  | catalog
  | order
  | records
  | pageSize
  | pageNumber

inductive Flag where
  | pretty
  | queryOnly

def valueOptions : List (String × ValueOption) :=
  [("--catalog", .catalog), ("-c", .catalog), ("--order-by", .order), ("-o", .order),
    ("--input", .records), ("-i", .records), ("--page-size", .pageSize), ("--page", .pageNumber)]

def flags : List (String × Flag) :=
  [("--pretty", .pretty), ("-p", .pretty), ("--syntax-only", .queryOnly)]

def splitOption (argument : String) : String × Option String :=
  let cs := argument.toList
  if cs.take 2 = ['-', '-'] && cs.contains '=' then
    (String.ofList (cs.takeWhile (· != '=')),
      some (String.ofList ((cs.dropWhile (· != '=')).drop 1)))
  else (argument, none)

def readCount (option value : String) : Except String Nat :=
  match (Number.readIndex value.toList) with
  | some n => .ok n
  | none => .error ("invalid value '" ++ value ++ "' for '" ++ option ++ "'")

def CheckArguments.set (a : CheckArguments) (spelling : String) (option : ValueOption)
    (value : String) : Except String CheckArguments :=
  match option with
  | .catalog => .ok { a with catalog := some value }
  | .order => .ok { a with order := some value }
  | .records => .ok { a with records := some value }
  | .pageSize => do .ok { a with pageSize := some (← readCount spelling value) }
  | .pageNumber => do .ok { a with pageNumber := ← readCount spelling value }

def CheckArguments.raise (a : CheckArguments) : Flag → CheckArguments
  | .pretty => { a with pretty := true }
  | .queryOnly => { a with queryOnly := true }

def readArguments (a : CheckArguments) : List String → Except String CheckArguments
  | [] => .ok a
  | argument :: rest =>
    let (spelling, attached) := splitOption argument
    match valueOptions.lookup spelling, attached, rest with
    | some option, some value, rest => do readArguments (← a.set spelling option value) rest
    | some option, none, value :: rest => do readArguments (← a.set spelling option value) rest
    | some _, none, [] => .error ("a value is required for '" ++ spelling ++ "'")
    | none, _, rest =>
      match flags.lookup argument, a.filter with
      | some flag, _ => readArguments (a.raise flag) rest
      | none, none => readArguments { a with filter := some argument } rest
      | none, some _ => .error ("unexpected argument '" ++ argument ++ "'")

def usage : String :=
  "Usage: sift <check FILTER --catalog FILE | docs | doc CATEGORY>"

def Command.ofArguments : List String → Except String Command
  | "check" :: rest => do
    let a ← readArguments {} rest
    match a.filter, a.catalog with
    | some _, some file => .ok (.check a file)
    | _, _ => .error usage
  | ["docs"] => .ok .overview
  | ["doc", name] => .ok (.topic name)
  | _ => .error usage

/-- The check for some arguments, once the catalog and perhaps the records have been read. -/
def CheckArguments.toCheck (a : CheckArguments) (catalog : String) (input : Option String) :
    Check where
  catalog := catalog
  filter := a.filter.getD ""
  order := a.order
  records := a.records.or input
  pageSize := a.pageSize
  pageNumber := a.pageNumber
  queryOnly := a.queryOnly

def CheckArguments.needsInput (a : CheckArguments) : Bool :=
  a.records.isNone && !a.queryOnly

def report (pretty : Bool) : CheckAnswer → List String
  | .query filter order =>
    ["Syntax is valid", "filter:   " ++ filter] ++
      if order.isEmpty then [] else ["order by: " ++ order]
  | .records records =>
    let document := Json.array records
    [if pretty then document.writeIndented 0 else document.write]

def topicPage (name : String) : Except String String :=
  match Manual.topic? name with
  | some topic => .ok topic.text
  | none => .error (Manual.unknownTopic name)

end CommandLine

end RecordQuery
