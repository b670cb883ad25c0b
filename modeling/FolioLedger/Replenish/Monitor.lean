import FolioLedger.Authority.Basic
import FolioLedger.Document.Artifact
import FolioLedger.Desk
import FolioLedger.Store.Locks
import FolioLedger.Store.Register
import FolioLedger.Store.Requests

/-!
# Asking for a new range

A trigger leads to a request only under the lock of the series, only while no other request is
pending, and only if the stock is low.  The lock is taken before the request goes to the authority
and kept for the poll that follows.  `Monitor.prepare` is what happens before the submission and
`Monitor.record` what happens after it, since others may act in between.
-/

namespace FolioLedger

/-- How ranges are asked for. -/
structure Monitor where
  /-- The folios of one request. -/
  quantity : Nat
  maxRangeSize : Nat
  /-- How long the lock of a series is held without renewal, in milliseconds. -/
  lockTtl : Nat
  /-- How long the authority may leave a request open, in seconds. -/
  pollTimeout : Nat
deriving DecidableEq

/-- What became of a trigger. -/
inductive TriggerOutcome where
  /-- Somebody else holds the lock of the series. -/
  | alreadyInFlight
  | aboveThreshold (remaining : Nat)
  /-- A request was pending already; the lock is held for its poll. -/
  | pendingExists (request : ReplenishmentRequest) (lease : Lease)
  /-- A new request was submitted; the lock is held for its poll. -/
  | submitted (request : ReplenishmentRequest) (lease : Lease)
deriving DecidableEq

/-- A request that is about to be submitted. -/
structure Draft where
  request : RangeRequest
  requestedAt : Instant
  lease : Lease
deriving DecidableEq

/-- Where a trigger stands before any submission. -/
inductive TriggerStep where
  | done (outcome : Except Failure TriggerOutcome)
  | submit (draft : Draft)

namespace Monitor

/-- The request for the numbers above all that a series has, if it may be made. -/
def nextRequest (m : Monitor) (s : Store) (series : Series) : Except Failure RangeRequest := do
  let first := match s.maxNumber? series with
    | some n => n + 1
    | none => 1
  let last := first + (m.quantity - 1)
  if 1 <<< 64 ≤ last then throw (.invalidRequest .beyondNumbers)
  let request : RangeRequest := ⟨series, first, last⟩
  request.check m.maxRangeSize
  return request

/-- What a trigger does under the lock of its series. -/
def prepareLocked (m : Monitor) (s : Store) (now : Instant) (series : Series) (threshold : Nat)
    (lease : Lease) : Except Failure (TriggerOutcome ⊕ Draft) := do
  match ← s.pendingRequest series with
  | some request => return .inl (.pendingExists request lease)
  | none =>
    let remaining := s.countAvailable series now.toMillis
    if threshold < remaining then return .inl (.aboveThreshold remaining)
    let request ← m.nextRequest s series
    return .inr ⟨request, now, lease⟩

/-- What a trigger does before any submission.  It reads the clock twice: it takes the lock `now`, and
counts the stock `later`. -/
def prepare (m : Monitor) (s : Store) (now later : Instant) (token : String) (series : Series)
    (threshold : Nat) : TriggerStep × Store :=
  match s.acquire now m.lockTtl token (Lock.replenishment series) with
  | (.error (.lockBusy _), s) => (.done (.ok .alreadyInFlight), s)
  | (.error failure, s) => (.done (.error failure), s)
  | (.ok lease, s) =>
    match m.prepareLocked s later series threshold lease with
    | .error failure => (.done (.error failure), s.release lease)
    | .ok (.inl (.aboveThreshold remaining)) =>
      (.done (.ok (.aboveThreshold remaining)), s.release lease)
    | .ok (.inl outcome) => (.done (.ok outcome), s)
    | .ok (.inr draft) => (.submit draft, s)

/-- The record of a request that got a tracking id. -/
def recordOf (draft : Draft) (trackingId : String) : ReplenishmentRequest where
  trackingId := trackingId
  series := draft.request.series
  first := draft.request.first
  last := draft.request.last
  status := .pending
  reason := none
  rangeId := none
  requestedAt := draft.requestedAt
  resolvedAt := none

/-- What a trigger does with the answer to its submission. -/
def record (s : Store) (draft : Draft) (answer : Except Failure String) :
    Except Failure TriggerOutcome × Store :=
  match answer with
  | .error failure => (.error failure, s.release draft.lease)
  | .ok trackingId =>
    let request := recordOf draft trackingId
    match s.recordRequest request with
    | .ok s => (.ok (.submitted request draft.lease), s)
    | .error failure => (.error failure, s.release draft.lease)

end Monitor

end FolioLedger
