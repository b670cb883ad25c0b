import FolioLedger.Time.Calendar

/-!
# Instants

Points of time in UTC with nanoseconds, their order, their difference and what may be added to
them.  A leap second lies inside the last second of a minute: its nanoseconds count on from
`10 ^ 9`.  Two coarser scales stand beside it: `Millis`, the milliseconds the store keeps, and
whole days.
-/

namespace FolioLedger

/-- Milliseconds from 1970, as the store keeps times. -/
abbrev Millis := Int

/-- A stretch of time in nanoseconds. -/
abbrev Nanos := Int

namespace Instant

/-- The first second that can be represented: 1 January of year -262143. -/
def minSecond : Int := -8334601228800

/-- The last second that can be represented: the last of year 262142. -/
def maxSecond : Int := 8210266876799

end Instant

/-- A point of time: the second it lies in, counted from 1970, and the nanoseconds into it. -/
structure Instant where
  second : Int
  nano : Nat
  min_le : Instant.minSecond ≤ second
  le_max : second ≤ Instant.maxSecond
  nano_lt : nano < 2000000000
  leap : 1000000000 ≤ nano → second % 60 = 59
deriving DecidableEq

namespace Instant

/-- The instant in the given second, if it can be represented. -/
def ofParts? (second : Int) (nano : Nat) : Option Instant :=
  if h : minSecond ≤ second ∧ second ≤ maxSecond ∧ nano < 2000000000 ∧
      (1000000000 ≤ nano → second % 60 = 59) then
    some ⟨second, nano, h.1, h.2.1, h.2.2.1, h.2.2.2⟩
  else none

/-- Midnight before 1 January 1970. -/
def epoch : Instant :=
  ⟨0, 0, by decide, by decide, by decide, by decide⟩

instance : Inhabited Instant := ⟨epoch⟩

/-- Whether the instant lies in a leap second. -/
def isLeap (t : Instant) : Bool :=
  1000000000 ≤ t.nano

/-- Instants are ordered by second, then by nanosecond. -/
instance : LT Instant :=
  ⟨fun a b => a.second < b.second ∨ (a.second = b.second ∧ a.nano < b.nano)⟩

instance : LE Instant :=
  ⟨fun a b => a.second < b.second ∨ (a.second = b.second ∧ a.nano ≤ b.nano)⟩

instance (a b : Instant) : Decidable (a < b) :=
  inferInstanceAs (Decidable (a.second < b.second ∨ (a.second = b.second ∧ a.nano < b.nano)))

instance (a b : Instant) : Decidable (a ≤ b) :=
  inferInstanceAs (Decidable (a.second < b.second ∨ (a.second = b.second ∧ a.nano ≤ b.nano)))

/-- The day of the instant. -/
def date (t : Instant) : Date :=
  Date.ofDays (t.second / 86400)

/-- The second of the day, not counting leap seconds. -/
def secondOfDay (t : Instant) : Nat :=
  (t.second % 86400).toNat

/-- The instant at a second of a day. -/
def ofDate? (d : Date) (secondOfDay nano : Nat) : Option Instant :=
  if d.isValid then ofParts? (d.toDays * 86400 + secondOfDay) nano else none

/-! ## Milliseconds -/

/-- The last millisecond not after the instant.  In a leap second the count runs on past 999. -/
def toMillis (t : Instant) : Millis :=
  t.second * 1000 + (t.nano / 1000000 : Nat)

/-- The instant at a millisecond, if it can be represented. -/
def ofMillis? (ms : Millis) : Option Instant :=
  ofParts? (ms / 1000) ((ms % 1000).toNat * 1000000)

/-! ## Differences and sums -/

/-- The nanoseconds from `b` to `a`.  A leap second counts when the two lie on the same day's
clock on different sides of it. -/
def since (a b : Instant) : Nanos :=
  let counted : Int :=
    if b.secondOfDay < a.secondOfDay ∧ b.isLeap then 1
    else if a.secondOfDay < b.secondOfDay ∧ a.isLeap then -1
    else 0
  (a.second - b.second + counted) * 1000000000 + ((a.nano : Int) - b.nano)

/-- The nanoseconds of a day. -/
def nanosPerDay : Nanos := 86400000000000

/-- The whole days from `b` to `a`, rounded toward zero. -/
def daysSince (a b : Instant) : Int :=
  ((a.since b).tdiv 1000000000).tdiv 86400

/-- The instant a stretch of time later, if it can be represented.  A sum that stays inside a leap
second keeps it; any other counts the leap second as part of its minute's last second. -/
def add? (t : Instant) (d : Nanos) : Option Instant :=
  let seconds := d.tdiv 1000000000
  let nanos := d.tmod 1000000000
  let forward := 0 < seconds ∨ (0 < nanos ∧ 2000000000 ≤ (t.nano : Int) + nanos)
  if t.isLeap ∧ ¬ forward ∧ seconds = 0 then
    ofParts? t.second ((t.nano : Int) + nanos).toNat
  else
    let base : Int :=
      if t.isLeap then
        (if forward then t.second else t.second + 1) * 1000000000 + (t.nano - 1000000000)
      else t.second * 1000000000 + t.nano
    let total := base + d
    ofParts? (total / 1000000000) (total % 1000000000).toNat

/-- The instant some days later. -/
def addDays? (t : Instant) (days : Int) : Option Instant :=
  t.add? (days * nanosPerDay)

/-- The instant some milliseconds later. -/
def addMillis? (t : Instant) (ms : Int) : Option Instant :=
  t.add? (ms * 1000000)

/-- The same time of day some months later; a day that the month lacks becomes its last. -/
def addMonths? (t : Instant) (months : Nat) : Option Instant :=
  if months < 1 <<< 31 then
    ofDate? (t.date.addMonths months) t.secondOfDay t.nano
  else none

end Instant

end FolioLedger
