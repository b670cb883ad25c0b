import FolioLedger.Store.Basic

/-!
# Registering ranges

A range is registered together with one available folio for each of its numbers, or not at all.
No number may belong to a range of the series already, and all numbers have to lie above those
that the series has used or voided, for otherwise numbering would run backwards.
-/

namespace FolioLedger

namespace NewRange

/-- Refuses a range that does not hold up by itself. -/
def check (limit : Nat) (new : NewRange) : Except Failure Unit :=
  if new.series.isIncomplete then .error (.invalidRange .incompleteSeries)
  else if new.first < 1 then .error (.invalidRange (.startBelowOne new.first))
  else if new.last < new.first then .error (.invalidRange (.endBeforeStart new.first new.last))
  else if limit < new.last - new.first + 1 then
    .error (.invalidRange (.tooLarge (new.last - new.first + 1) limit))
  else if new.expiresAt ≤ new.authorizedAt then .error (.invalidRange .expiryNotLater)
  else .ok ()

/-- The range that results. -/
def toRange (new : NewRange) (id : String) (now : Instant) : Range where
  id := id
  series := new.series
  first := new.first
  last := new.last
  authorizedAt := new.authorizedAt
  expiresAt := new.expiresAt
  status := .active
  artifactHash := new.artifactHash
  trackingId := new.trackingId
  registeredAt := now
  nearExpiryAlertedAt := none

/-- The row that is kept of it. -/
def toRow (new : NewRange) (id : String) (now : Instant) : RangeRow where
  id := id
  series := new.series
  first := new.first
  last := new.last
  authorizedAt := new.authorizedAt.toMillis
  expiresAt := new.expiresAt.toMillis
  status := .active
  artifactHash := new.artifactHash
  trackingId := new.trackingId
  registeredAt := now.toMillis
  nearExpiryAlertedAt := none

/-- The folios of the range. -/
def folios (new : NewRange) (id : String) : List FolioRow :=
  (List.range' new.first (new.last + 1 - new.first)).map fun n => ⟨new.series, n, id, .available⟩

end NewRange

namespace Store

/-- The first range of a series with a status that shares a number with the bounds. -/
def overlapping? (s : Store) (series : Series) (first last : Nat) (status : RangeStatus) :
    Option RangeRow :=
  s.ranges.find? fun r =>
    r.series = series ∧ r.status = status ∧ r.first ≤ last ∧ first ≤ r.last

/-- The range that stands in the way of new bounds: an active one before an expired one, and
otherwise the owner of the least number taken. -/
def obstacle? (s : Store) (series : Series) (first last : Nat) : Option String :=
  match s.overlapping? series first last .active with
  | some r => some r.id
  | none =>
    match s.overlapping? series first last .expired with
    | some r => some r.id
    | none =>
      (leastNumber ((s.foliosOf series).filter fun f => first ≤ f.number ∧ f.number ≤ last)).map
        (·.rangeId)

/-- Refuses a range whose numbers belong to a range of the series, or do not lie above all that the
series has used or voided. -/
def checkNumbers (s : Store) (new : NewRange) : Except Failure Unit :=
  match s.obstacle? new.series new.first new.last with
  | some existing => .error (.rangeOverlap new.series new.first new.last existing)
  | none =>
    match s.maxIssued? new.series with
    | some issued =>
      if new.first ≤ issued then
        .error (.invalidRange (.notAboveIssued new.first issued new.series))
      else .ok ()
    | none => .ok ()

/-- Refuses a range whose rows the tables do not take.  `faulty` is a number whose folio the medium
refuses. -/
def checkRows (s : Store) (faulty : Option Nat) (id : String) (new : NewRange) :
    Except Failure Unit :=
  if new.expiresAt.toMillis ≤ new.authorizedAt.toMillis then .error (.storage .expiryNotLater)
  else if s.ranges.any (·.id = id) then .error (.storage .rangeIdTaken)
  else if faulty.any fun n => new.first ≤ n ∧ n ≤ new.last then .error (.storage .full)
  else .ok ()

/-- Registers a range under an id that no other range has. -/
def register (s : Store) (limit : Nat) (faulty : Option Nat) (id : String) (now : Instant)
    (new : NewRange) : Except Failure (Range × Store) := do
  new.check limit
  checkNumber new.first
  checkNumber new.last
  s.checkNumbers new
  s.checkRows faulty id new
  return (new.toRange id now,
    { s with ranges := s.ranges ++ [new.toRow id now], folios := s.folios ++ new.folios id })

end Store

end FolioLedger
