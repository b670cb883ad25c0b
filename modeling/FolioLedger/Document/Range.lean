import FolioLedger.Json.Record
import FolioLedger.Series
import FolioLedger.Status

/-!
# Authorization ranges

A range is a block of folio numbers of one series that the authority approved.  The record is the
same in documents, where times are instants, and in the store, where they are milliseconds.
-/

namespace FolioLedger

/-- A range, with times of type `Time`. -/
structure RangeRecord (Time : Type) where
  id : String
  series : Series
  /-- The first number, inclusive. -/
  first : Nat
  /-- The last number, inclusive. -/
  last : Nat
  authorizedAt : Time
  expiresAt : Time
  status : RangeStatus
  /-- The hash of the artifact that the range was read from. -/
  artifactHash : Option String
  /-- The tracking id of the request that the range came from. -/
  trackingId : Option String
  registeredAt : Time
  nearExpiryAlertedAt : Option Time
deriving DecidableEq

/-- A range as it appears in documents. -/
abbrev Range := RangeRecord Instant

namespace RangeRecord

variable {Time : Type}

/-- The number of folios.  Of reversed bounds it is the count modulo `2 ^ 64`. -/
def size (r : RangeRecord Time) : Nat :=
  (r.last + (1 <<< 64) - r.first + 1) % (1 <<< 64)

/-- The document of a range. -/
def toJson (r : Range) : Json :=
  .record [
    ("range_id", .str r.id),
    ("issuer", .str r.series.issuer),
    ("doc_type", .str r.series.docType),
    ("start", .nat r.first),
    ("end", .nat r.last),
    ("authorized_at", .ofInstant r.authorizedAt),
    ("expires_at", .ofInstant r.expiresAt),
    ("status", .str r.status.word),
    ("artifact_hash", .optional .str r.artifactHash),
    ("source_tracking_id", .optional .str r.trackingId),
    ("registered_at", .ofInstant r.registeredAt),
    ("near_expiry_alerted_at", .optional .ofInstant r.nearExpiryAlertedAt)]

/-- The range of a document. -/
def ofJson? (j : Json) : Option Range := do
  match ← j.fields? ["range_id", "issuer", "doc_type", "start", "end", "authorized_at",
      "expires_at", "status", "artifact_hash", "source_tracking_id", "registered_at",
      "near_expiry_alerted_at"] with
  | [id, issuer, docType, first, last, authorizedAt, expiresAt, status, artifactHash, trackingId,
      registeredAt, nearExpiryAlertedAt] =>
    some {
      id := ← Json.needed Json.text? id
      series := ⟨← Json.needed Json.text? issuer, ← Json.needed Json.text? docType⟩
      first := ← Json.needed Json.nat? first
      last := ← Json.needed Json.nat? last
      authorizedAt := ← Json.needed Json.instant? authorizedAt
      expiresAt := ← Json.needed Json.instant? expiresAt
      status := ← Json.needed (Json.word? RangeStatus.ofWord?) status
      artifactHash := ← Json.lenient Json.text? artifactHash
      trackingId := ← Json.lenient Json.text? trackingId
      registeredAt := ← Json.needed Json.instant? registeredAt
      nearExpiryAlertedAt := ← Json.lenient Json.instant? nearExpiryAlertedAt }
  | _ => none

end RangeRecord

/-- What is registered as a range. -/
structure NewRange where
  series : Series
  first : Nat
  last : Nat
  authorizedAt : Instant
  expiresAt : Instant
  artifactHash : Option String := none
  trackingId : Option String := none
deriving DecidableEq

end FolioLedger
