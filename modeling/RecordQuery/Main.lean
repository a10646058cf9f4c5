import RecordQuery.CommandLine
import Std.Time.DateTime.Timestamp

/-!
# The program

Reads what a command needs, runs it, and prints the outcome. Errors go to the standard error and
make the exit code one.
-/

namespace RecordQuery

namespace CommandLine

def readClock : IO Timestamp := do
  let nanos := (← Std.Time.Timestamp.now).toNanosecondsSinceUnixEpoch.val
  return ⟨nanos / Timestamp.nanosPerSecond, (nanos % Timestamp.nanosPerSecond).toNat⟩

def readInput : IO (Option String) := do
  let input ← IO.getStdin
  if ← input.isTty then return none
  return some (← readAll input "")
where
  /-- The lines of a stream behind a text. -/
  readAll (input : IO.FS.Stream) (text : String) : IO String := do
    let mut text := text
    let mut line ← input.getLine
    while !line.isEmpty do
      text := text ++ line
      line ← input.getLine
    return text

def fail (message : String) : IO UInt32 := do
  IO.eprintln message
  return 1

def runCheck (a : CheckArguments) (catalogFile : String) : IO UInt32 := do
  let catalog ← IO.FS.readFile catalogFile
  let input ← if a.needsInput then readInput else pure none
  match (a.toCheck catalog input).run (← readClock) with
  | .error e => fail e.message
  | .ok answer =>
    for line in report a.pretty answer do
      IO.println line
    return 0

def run : Command → IO UInt32
  | .check a catalogFile => runCheck a catalogFile
  | .overview => do
    IO.print Manual.overview
    return 0
  | .topic name =>
    match topicPage name with
    | .ok text => do
      IO.print text
      return 0
    | .error message => fail message

end CommandLine

end RecordQuery

def main (args : List String) : IO UInt32 :=
  match RecordQuery.CommandLine.Command.ofArguments args with
  | .error message => RecordQuery.CommandLine.fail message
  | .ok command =>
    tryCatch (RecordQuery.CommandLine.run command) fun e =>
      RecordQuery.CommandLine.fail ("IO error: " ++ toString e)
