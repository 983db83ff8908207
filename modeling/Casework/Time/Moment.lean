/-
  Casework.Time.Moment

  Moments: a day, a time of day in millionths of a second, and, if known, the distance from
  universal time. The store keeps the day and the time of day only.
-/
import Casework.Time.Date

namespace Casework

/-- A moment. The offset is in millionths of a second. -/
structure Moment where
  date : Date
  hour : Nat
  minute : Nat
  second : Nat
  micro : Nat
  offset : Option Int
  deriving DecidableEq, Repr

namespace Moment

/-- A number with at least so many digits. -/
def padded (width n : Nat) : String :=
  let digits := toString n
  String.ofList (List.replicate (width - digits.length) '0') ++ digits

/-- The text of millionths of a second, nothing for none. -/
def fractionText (micro : Nat) : String := if micro == 0 then "" else "." ++ padded 6 micro

/-- The number of millionths in a second. -/
def microsPerSecond : Nat := 1000000

/-- The text of an offset. -/
def offsetText (offset : Int) : String :=
  let size := offset.natAbs
  let seconds := size / microsPerSecond
  let micro := size % microsPerSecond
  (if offset < 0 then "-" else "+") ++ padded 2 (seconds / 3600) ++ ":" ++
    padded 2 (seconds / 60 % 60) ++
    (if seconds % 60 == 0 && micro == 0 then ""
     else ":" ++ padded 2 (seconds % 60) ++ fractionText micro)

/-- The text of a moment. -/
def render (m : Moment) : String :=
  padded 4 m.date.year ++ "-" ++ padded 2 m.date.month ++ "-" ++ padded 2 m.date.day ++ "T" ++
    padded 2 m.hour ++ ":" ++ padded 2 m.minute ++ ":" ++ padded 2 m.second ++
    fractionText m.micro ++
    (match m.offset with
     | some offset => offsetText offset
     | none => "")

/-- The moment as the store keeps it. -/
def bare (m : Moment) : Moment := { m with offset := none }

/-- The millionths of a second before a moment, on its own clock. -/
def ticks (m : Moment) : Nat :=
  (((m.date.ordinal * 24 + m.hour) * 60 + m.minute) * 60 + m.second) * microsPerSecond + m.micro

/-- The moment so many seconds after the start of a day, in universal time. -/
def afterMidnight (date : Date) (seconds : Nat) : Moment where
  date := Date.ofOrdinal (date.ordinal + seconds / 86400)
  hour := seconds % 86400 / 3600
  minute := seconds / 60 % 60
  second := seconds % 60
  micro := 0
  offset := some 0

/-- The moment so many days later, if the calendar has it. -/
def addDays? (m : Moment) (days : Int) : Option Moment :=
  (m.date.addDays? days).map fun date => { m with date }

end Moment
end Casework
