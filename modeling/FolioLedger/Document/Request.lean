import FolioLedger.Failure
import FolioLedger.Json.Record

/-!
# Requests for ranges

What the authority is asked for, and the record that is kept of it.
-/

namespace FolioLedger

/-- A request for a range, as it goes to the authority. -/
structure RangeRequest where
  series : Series
  first : Nat
  last : Nat
deriving DecidableEq

namespace RangeRequest

/-- The number of folios asked for.  Reversed bounds ask for one. -/
def quantity (r : RangeRequest) : Nat :=
  r.last - r.first + 1

/-- Refuses what the authority would refuse anyway. -/
def check (limit : Nat) (r : RangeRequest) : Except Failure Unit :=
  if r.series.isIncomplete then .error (.invalidRequest .incompleteSeries)
  else if r.first < 1 ∨ r.last < r.first then
    .error (.invalidRequest (.invalidBounds r.first r.last))
  else if limit < r.quantity then
    .error (.invalidRequest (.quantityTooLarge r.quantity limit))
  else .ok ()

/-- The document of a request. -/
def toJson (r : RangeRequest) : Json :=
  .record [
    ("issuer", .str r.series.issuer),
    ("doc_type", .str r.series.docType),
    ("start", .nat r.first),
    ("end", .nat r.last)]

/-- The request of a document. -/
def ofJson? (j : Json) : Option RangeRequest := do
  match ← j.fields? ["issuer", "doc_type", "start", "end"] with
  | [issuer, docType, first, last] =>
    some {
      series := ⟨← Json.needed Json.text? issuer, ← Json.needed Json.text? docType⟩
      first := ← Json.needed Json.nat? first
      last := ← Json.needed Json.nat? last }
  | _ => none

end RangeRequest

/-- The record of a request that the authority took. -/
structure ReplenishmentRequest where
  trackingId : String
  series : Series
  first : Nat
  last : Nat
  status : RequestStatus
  reason : Option String
  rangeId : Option String
  requestedAt : Instant
  resolvedAt : Option Instant
deriving DecidableEq

namespace ReplenishmentRequest

/-- The number of folios asked for.  Of reversed bounds it is the count modulo `2 ^ 64`. -/
def quantity (r : ReplenishmentRequest) : Nat :=
  (r.last + (1 <<< 64) - r.first + 1) % (1 <<< 64)

/-- The document of a record. -/
def toJson (r : ReplenishmentRequest) : Json :=
  .record [
    ("tracking_id", .str r.trackingId),
    ("issuer", .str r.series.issuer),
    ("doc_type", .str r.series.docType),
    ("start", .nat r.first),
    ("end", .nat r.last),
    ("status", .str r.status.word),
    ("reason", .optional .str r.reason),
    ("range_id", .optional .str r.rangeId),
    ("requested_at", .ofInstant r.requestedAt),
    ("resolved_at", .optional .ofInstant r.resolvedAt)]

/-- The record of a document. -/
def ofJson? (j : Json) : Option ReplenishmentRequest := do
  match ← j.fields? ["tracking_id", "issuer", "doc_type", "start", "end", "status", "reason",
      "range_id", "requested_at", "resolved_at"] with
  | [trackingId, issuer, docType, first, last, status, reason, rangeId, requestedAt,
      resolvedAt] =>
    some {
      trackingId := ← Json.needed Json.text? trackingId
      series := ⟨← Json.needed Json.text? issuer, ← Json.needed Json.text? docType⟩
      first := ← Json.needed Json.nat? first
      last := ← Json.needed Json.nat? last
      status := ← Json.needed (Json.word? RequestStatus.ofWord?) status
      reason := ← Json.lenient Json.text? reason
      rangeId := ← Json.lenient Json.text? rangeId
      requestedAt := ← Json.needed Json.instant? requestedAt
      resolvedAt := ← Json.lenient Json.instant? resolvedAt }
  | _ => none

end ReplenishmentRequest

end FolioLedger
