import FolioLedger.Text.Numeral
import FolioLedger.Time.Instant

/-!
# Written forms of instants

Every form shares the date and the time of day; the forms differ in what stands between and after
them.  A fraction has as few of 0, 3, 6 or 9 digits as are exact.  A leap second is written as
second 60.
-/

namespace FolioLedger

namespace Date

/-- The year in four digits; outside 0 to 9999 with a sign. -/
def renderYear (year : Int) : String :=
  if 0 ≤ year ∧ year ≤ 9999 then Numeral.padded 4 year.toNat
  else if year < 0 then "-" ++ Numeral.padded 4 (-year).toNat
  else "+" ++ Numeral.padded 4 year.toNat

/-- The date as `YYYY-MM-DD`. -/
def render (d : Date) : String :=
  renderYear d.year ++ "-" ++ Numeral.padded 2 d.month ++ "-" ++ Numeral.padded 2 d.day

end Date

namespace Instant

/-- Hours and minutes. -/
def renderMinute (t : Instant) : String :=
  Numeral.padded 2 (t.secondOfDay / 3600) ++ ":" ++ Numeral.padded 2 (t.secondOfDay / 60 % 60)

/-- Hours, minutes and seconds. -/
def renderClock (t : Instant) : String :=
  t.renderMinute ++ ":" ++ Numeral.padded 2 (t.secondOfDay % 60 + t.nano / 1000000000)

/-- The fraction of the second after its point, in as few of 0, 3, 6 or 9 digits as are exact. -/
def renderFraction (t : Instant) : String :=
  let nano := t.nano % 1000000000
  if nano = 0 then ""
  else if nano % 1000000 = 0 then "." ++ Numeral.padded 3 (nano / 1000000)
  else if nano % 1000 = 0 then "." ++ Numeral.padded 6 (nano / 1000)
  else "." ++ Numeral.padded 9 nano

/-- The form of documents: RFC 3339 with `Z`. -/
def render (t : Instant) : String :=
  t.date.render ++ "T" ++ t.renderClock ++ t.renderFraction ++ "Z"

/-- RFC 3339 with `Z`, the fraction of the second dropped. -/
def renderSeconds (t : Instant) : String :=
  t.date.render ++ "T" ++ t.renderClock ++ "Z"

/-- RFC 3339 with a numeric offset. -/
def renderOffset (t : Instant) : String :=
  t.date.render ++ "T" ++ t.renderClock ++ t.renderFraction ++ "+00:00"

/-- The form of messages: date, time and zone divided by spaces. -/
def display (t : Instant) : String :=
  t.date.render ++ " " ++ t.renderClock ++ t.renderFraction ++ " UTC"

end Instant

end FolioLedger
