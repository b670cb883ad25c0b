/-!
# The Gregorian calendar

Dates of the proleptic Gregorian calendar and their numbering in days from 1 January 1970.  A year
starts after the days of all years before it, so both directions go through
`Date.daysBeforeYear` and `Date.daysBeforeMonth`.
-/

namespace FolioLedger

/-- A date of the proleptic Gregorian calendar.  Year 0 is the year before year 1. -/
structure Date where
  year : Int
  month : Nat
  day : Nat
deriving DecidableEq, Repr

namespace Date

/-- Every fourth year is a leap year, but of the full centuries only every fourth. -/
def isLeapYear (year : Int) : Bool :=
  year % 4 == 0 && (year % 100 != 0 || year % 400 == 0)

/-- The number of days of a month, counted from 1. -/
def daysInMonth (year : Int) (month : Nat) : Nat :=
  if month = 2 then
    if isLeapYear year then 29 else 28
  else if month = 4 ∨ month = 6 ∨ month = 9 ∨ month = 11 then 30
  else 31

/-- The days from 1 January of year 0 up to 1 January of the given year. -/
def daysBeforeYear (year : Int) : Int :=
  365 * year + (year + 3) / 4 - (year + 99) / 100 + (year + 399) / 400

/-- The days of a year before the given month. -/
def daysBeforeMonth (year : Int) : Nat → Nat
  | 0 => 0
  | 1 => 0
  | month + 2 => daysBeforeMonth year (month + 1) + daysInMonth year (month + 1)

/-- Whether there is such a day. -/
def isValid (d : Date) : Bool :=
  1 ≤ d.month && d.month ≤ 12 && 1 ≤ d.day && d.day ≤ daysInMonth d.year d.month

/-- The days from 1 January 1970 up to the date. -/
def toDays (d : Date) : Int :=
  daysBeforeYear d.year + daysBeforeMonth d.year d.month + (d.day : Int) - 1 - daysBeforeYear 1970

/-- The year that holds the day with the given number, counted from 1 January of year 0. -/
def yearOfDay (day : Int) : Int :=
  let guess := (400 * day - 600) / 146097
  if daysBeforeYear (guess + 2) ≤ day then guess + 2
  else if daysBeforeYear (guess + 1) ≤ day then guess + 1
  else guess

/-- The date with the given number of days from 1 January 1970. -/
def ofDays (days : Int) : Date :=
  let day := days + daysBeforeYear 1970
  let year := yearOfDay day
  let offset := (day - daysBeforeYear year).toNat
  let month := ((List.range' 1 12).filter (daysBeforeMonth year · ≤ offset)).length
  ⟨year, month, offset - daysBeforeMonth year month + 1⟩

/-- The date some months later; a day that the month lacks becomes its last. -/
def addMonths (d : Date) (months : Nat) : Date :=
  let total := 12 * d.year + (d.month : Int) - 1 + months
  let year := total / 12
  let month := (total % 12).toNat + 1
  ⟨year, month, min d.day (daysInMonth year month)⟩

end Date

end FolioLedger
