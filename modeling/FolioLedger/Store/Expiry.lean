import FolioLedger.Store.Basic
import FolioLedger.Validity

/-!
# Expiry of ranges

Moving active ranges past their expiry, finding the active range of a series, and the mark that
the warning about a range's expiry was given.
-/

namespace FolioLedger

/-- The validity of a range and the number of its folios in each state. -/
structure RangeReport where
  range : Range
  validity : Validity
  daysLeft : Int
  available : Nat
  used : Nat
  voided : Nat
deriving DecidableEq

/-- The document of a report on a range. -/
def RangeReport.toJson (r : RangeReport) : Json :=
  .record [
    ("range", r.range.toJson),
    ("validity", .str r.validity.word),
    ("days_to_expiry", .int r.daysLeft),
    ("available", .nat r.available),
    ("used", .nat r.used),
    ("voided", .nat r.voided)]

/-- Which ranges are listed.  What is absent matches all. -/
structure RangeFilter where
  issuer : Option String := none
  docType : Option String := none
  status : Option RangeStatus := none

/-- Whether a range is listed. -/
def RangeFilter.admits (f : RangeFilter) (r : RangeRow) : Bool :=
  f.issuer.all (· = r.series.issuer) && f.docType.all (· = r.series.docType) &&
    f.status.all (· = r.status)

namespace Store

/-- Whether a range is active and its expiry has come. -/
def isDue (r : RangeRow) (now : Millis) : Bool :=
  r.status = .active && r.expiresAt ≤ now

/-- Expires the active ranges whose expiry has come, and gives them in the order of registration. -/
def expire (s : Store) (now : Instant) : Except Failure (List Range × Store) := do
  let ms := now.toMillis
  let due := s.ranges.filter (isDue · ms)
  let expired ← (due.map fun r => { r with status := .expired }).mapM RangeRecord.toRange
  return (expired, s.setStatus (isDue · ms) .expired)

/-- The range with the latest authorization, the first of equal ones. -/
def latestAuthorization (rows : List RangeRow) : Option RangeRow :=
  rows.foldl (fun best r =>
    match best with
    | none => some r
    | some b => if b.authorizedAt < r.authorizedAt then some r else some b) none

/-- The active range of a series that was authorized last, among those that have not expired and
still hold folios. -/
def activeRange (s : Store) (now : Instant) (series : Series) : Except Failure Range :=
  match latestAuthorization (s.ranges.filter fun r =>
      r.series = series ∧ r.status = .active ∧ now.toMillis < r.expiresAt ∧ s.hasStock r.id) with
  | some row => row.toRange
  | none => .error (.notFound (.activeRange series))

/-- Ranges are listed by series, then by first number. -/
def listedBefore (a b : RangeRow) : Bool :=
  if a.series = b.series then a.first ≤ b.first else a.series.precedes b.series

/-- The ranges that a filter matches. -/
def listRanges (s : Store) (filter : RangeFilter) : Except Failure (List Range) :=
  ((s.ranges.filter filter.admits).mergeSort listedBefore).mapM RangeRecord.toRange

/-- Validity and folios of a range.  A range that is recorded as expired stays so, whatever the
clock says. -/
def rangeReport (s : Store) (now : Instant) (nearDays : Int) (id : String) :
    Except Failure RangeReport := do
  let range ← s.getRange id
  let (validity, daysLeft) := match range.status with
    | .expired => (Validity.expired, range.expiresAt.daysSince now)
    | _ => classifyValidity range.expiresAt now nearDays
  return ⟨range, validity, daysLeft, s.countOf id .available, s.countOf id .used,
    s.countOf id .void⟩

/-- Whether the warning about a range's expiry is still to be given. -/
def isUnwarned (r : RangeRow) (id : String) : Bool :=
  r.id = id && r.status = .active && r.nearExpiryAlertedAt.isNone

/-- Records that the warning about a range's expiry was given; tells whether it was the first. -/
def markNearExpiry (s : Store) (id : String) (now : Instant) : Bool × Store :=
  (s.ranges.any (isUnwarned · id),
    { s with ranges := s.ranges.map fun r =>
        if isUnwarned r id then { r with nearExpiryAlertedAt := some now.toMillis } else r })

end Store

end FolioLedger
