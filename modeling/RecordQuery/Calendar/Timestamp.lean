import RecordQuery.Calendar.Date

/-!
# Timestamps

A point in time is the count of whole seconds since the first of January 1970, all days having
86400 of them, and a count of nanoseconds within the second. A leap second prolongs the second
before it: its nanoseconds go on from one thousand million to two. So a leap second sorts between
its neighbours, in the order by seconds and then by nanoseconds.
-/

namespace RecordQuery

structure Timestamp where
  seconds : Int
  nanos : Nat
  deriving DecidableEq

namespace Timestamp

def nanosPerSecond : Nat := 1000000000

def secondsPerDay : Nat := 86400

def compare (a b : Timestamp) : Ordering :=
  (Ord.compare a.seconds b.seconds).then (Ord.compare a.nanos b.nanos)

instance : Ord Timestamp := ⟨compare⟩

def ofDate (d : Date) : Timestamp :=
  ⟨d.toDays * secondsPerDay, 0⟩

def dayNumber (t : Timestamp) : Int :=
  t.seconds / secondsPerDay

def secondOfDay (t : Timestamp) : Nat :=
  (t.seconds % secondsPerDay).toNat

def midnight (t : Timestamp) (days : Int) : Timestamp :=
  ⟨(t.dayNumber + days) * secondsPerDay, 0⟩

/-- The point in time on a day, the seconds of a minute counting up to 60: the last of those is a
leap second. -/
def ofParts (d : Date) (hour minute second nanos : Nat) : Timestamp :=
  let leap := second == 60
  ⟨d.toDays * secondsPerDay + (hour * 3600 + minute * 60 + (if leap then 59 else second) : Nat),
    nanos + if leap then nanosPerSecond else 0⟩

/-- The fraction of a second after a point, in three, six or nine places, whichever suffice, and
nothing if it is zero. -/
def writeFraction (nanos : Nat) : List Char :=
  if nanos = 0 then []
  else if nanos % 1000000 = 0 then '.' :: Number.writePadded 3 (nanos / 1000000)
  else if nanos % 1000 = 0 then '.' :: Number.writePadded 6 (nanos / 1000)
  else '.' :: Number.writePadded 9 nanos

/-- The date and the time of day in universal time. A leap second shows as second 60. -/
def write (t : Timestamp) : List Char :=
  let leap := nanosPerSecond ≤ t.nanos
  let second := t.secondOfDay % 60 + if leap then 1 else 0
  let nanos := if leap then t.nanos - nanosPerSecond else t.nanos
  (Date.ofDays t.dayNumber).write ++ 'T' :: Number.writePadded 2 (t.secondOfDay / 3600) ++
    ':' :: Number.writePadded 2 (t.secondOfDay / 60 % 60) ++
    ':' :: Number.writePadded 2 second ++ writeFraction nanos ++ ['+', '0', '0', ':', '0', '0']

end Timestamp

end RecordQuery
