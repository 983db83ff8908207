/-
  Casework.Time.Date

  Days of the calendar: years 1 to 9999 with the leap years of today extended to all of them. Days
  are also counted from the first one, and named by their week: weeks begin on Mondays and belong to
  the year that holds their Thursday.
-/

namespace Casework

/-- A day of the calendar. -/
structure Date where
  year : Nat
  month : Nat
  day : Nat
  deriving DecidableEq, Repr

namespace Date

/-- The last year of the calendar. -/
def lastYear : Nat := 9999

/-- Whether a year has a leap day. -/
def isLeap (year : Nat) : Bool := year % 4 == 0 && (year % 100 != 0 || year % 400 == 0)

/-- The number of days of a month. -/
def daysInMonth (year month : Nat) : Nat :=
  match month with
  | 2 => if isLeap year then 29 else 28
  | 4 | 6 | 9 | 11 => 30
  | _ => 31

/-- The number of days of a year. -/
def daysInYear (year : Nat) : Nat := if isLeap year then 366 else 365

/-- Whether the parts name a day of the calendar. -/
def valid (d : Date) : Bool :=
  1 ≤ d.year && d.year ≤ lastYear && 1 ≤ d.month && d.month ≤ 12 && 1 ≤ d.day &&
    d.day ≤ daysInMonth d.year d.month

/-- The number of days before a year. -/
def daysBeforeYear (year : Nat) : Nat :=
  let y := year - 1
  365 * y + y / 4 - y / 100 + y / 400

/-- The number of days of a year before a month. -/
def daysBeforeMonth (year : Nat) : Nat → Nat
  | 0 | 1 => 0
  | month + 2 => daysBeforeMonth year (month + 1) + daysInMonth year (month + 1)

/-- The number of a day, the first one having number one. -/
def ordinal (d : Date) : Nat := daysBeforeYear d.year + daysBeforeMonth d.year d.month + d.day

/-- The month and the day of the month at a distance from the first day of month `month`. -/
def splitMonths (year : Nat) : Nat → Nat → Nat → Nat × Nat
  | 0, month, days => (month, days + 1)
  | left + 1, month, days =>
    if days < daysInMonth year month then (month, days + 1)
    else splitMonths year left (month + 1) (days - daysInMonth year month)

/-- The year in which the day lies that has so many days before it. -/
def yearOf (days : Nat) : Nat :=
  let guess := days / 366 + 1
  climb days (days / 365 + 1 - guess) guess
where
  /-- The last of at most `left` years from `year` on that begins no later than the day. -/
  climb (days : Nat) : Nat → Nat → Nat
    | 0, year => year
    | left + 1, year =>
      if daysBeforeYear (year + 1) ≤ days then climb days left (year + 1) else year

/-- The day of a number. -/
def ofOrdinal (n : Nat) : Date :=
  let days := n - 1
  let year := yearOf days
  let (month, day) := splitMonths year 11 1 (days - daysBeforeYear year)
  ⟨year, month, day⟩

/-- The number of the last day. -/
def lastOrdinal : Nat := 3652059

/-- The day so many days later, if the calendar has it. -/
def addDays? (d : Date) (days : Int) : Option Date :=
  let n := (d.ordinal : Int) + days
  if 1 ≤ n && n ≤ lastOrdinal then some (ofOrdinal n.toNat) else none

/-! ## Weeks -/

/-- The day of the week of the day with a number, Monday being zero. -/
def weekdayOf (n : Int) : Int := (n + 6) % 7

/-- The number of the Monday of a year's first week. -/
def firstMonday (year : Nat) : Int :=
  let first : Int := if year = 0 then -365 else daysBeforeYear year + 1
  let weekday := weekdayOf first
  first - weekday + (if weekday > 3 then 7 else 0)

/-- The number of weeks of a year. -/
def weeksOf (year : Nat) : Nat :=
  let first : Int := if year = 0 then -365 else daysBeforeYear year + 1
  let weekday := weekdayOf first
  if weekday = 3 || (weekday = 2 && isLeap year) then 53 else 52

/-- The day of a week of a year, days counted from one. -/
def ofWeek? (year week day : Nat) : Option Date :=
  if 1 ≤ week && week ≤ weeksOf year && 1 ≤ day && day ≤ 7 then
    let n := firstMonday year + 7 * (week - 1) + (day - 1)
    if 1 ≤ n && n ≤ lastOrdinal then some (ofOrdinal n.toNat) else none
  else none

end Date
end Casework
