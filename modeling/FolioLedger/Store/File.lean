import FolioLedger.Json.Printer
import FolioLedger.Store.Basic

/-!
# Stores in files

A store as one document: its tables in order, each row a record.  Times are numbers of
milliseconds.
-/

namespace FolioLedger

/-- A number of milliseconds, which a signed word of 64 bits holds. -/
def Json.millis? (j : Json) : Option Millis := j.int64?

/-- The members of a series in a row. -/
def Series.members (s : Series) : List (String × Json) :=
  [("issuer", .str s.issuer), ("doc_type", .str s.docType)]

/-- A row of the table of ranges. -/
def RangeRecord.rowJson (r : RangeRow) : Json :=
  .record (r.series.members ++ [
    ("id", .str r.id),
    ("start", .nat r.first),
    ("end", .nat r.last),
    ("authorized_at", .int r.authorizedAt),
    ("expires_at", .int r.expiresAt),
    ("status", .str r.status.word),
    ("artifact_hash", .optional .str r.artifactHash),
    ("tracking_id", .optional .str r.trackingId),
    ("registered_at", .int r.registeredAt),
    ("near_expiry_alerted_at", .optional .int r.nearExpiryAlertedAt)])

/-- The row of the table of ranges that a record denotes. -/
def RangeRecord.ofRowJson? (j : Json) : Option RangeRow := do
  match ← j.fields? ["issuer", "doc_type", "id", "start", "end", "authorized_at", "expires_at",
      "status", "artifact_hash", "tracking_id", "registered_at", "near_expiry_alerted_at"] with
  | [issuer, docType, id, first, last, authorizedAt, expiresAt, status, artifactHash, trackingId,
      registeredAt, nearExpiryAlertedAt] =>
    some {
      series := ⟨← Json.needed Json.text? issuer, ← Json.needed Json.text? docType⟩
      id := ← Json.needed Json.text? id
      first := ← Json.needed Json.nat? first
      last := ← Json.needed Json.nat? last
      authorizedAt := ← Json.needed Json.millis? authorizedAt
      expiresAt := ← Json.needed Json.millis? expiresAt
      status := ← Json.needed (Json.word? RangeStatus.ofWord?) status
      artifactHash := ← Json.lenient Json.text? artifactHash
      trackingId := ← Json.lenient Json.text? trackingId
      registeredAt := ← Json.needed Json.millis? registeredAt
      nearExpiryAlertedAt := ← Json.lenient Json.millis? nearExpiryAlertedAt }
  | _ => none

/-- The members of a state: its word, its time and what else belongs to it. -/
def stateMembers (word : String) (since : Option Millis) (detail : Option String) :
    List (String × Json) :=
  [("state", .str word), ("since", .optional .int since), ("detail", .optional .str detail)]

/-- A row of the table of folios. -/
def FolioRow.toJson (f : FolioRow) : Json :=
  let state := match f.state with
    | .available => stateMembers FolioStatus.available.word none none
    | .used since document => stateMembers FolioStatus.used.word (some since) document
    | .void since reason => stateMembers FolioStatus.void.word (some since) (some reason)
  .record (f.series.members ++ [("number", .nat f.number), ("range_id", .str f.rangeId)] ++ state)

/-- The row of the table of folios that a record denotes. -/
def FolioRow.ofJson? (j : Json) : Option FolioRow := do
  match ← j.fields? ["issuer", "doc_type", "number", "range_id", "state", "since", "detail"] with
  | [issuer, docType, number, rangeId, state, since, detail] =>
    let since ← Json.lenient Json.millis? since
    let detail ← Json.lenient Json.text? detail
    let state ← match ← Json.needed (Json.word? FolioStatus.ofWord?) state with
      | .available => some FolioState.available
      | .used => since.map (.used · detail)
      | .void => since.bind fun ms => detail.map (.void ms)
    some {
      series := ⟨← Json.needed Json.text? issuer, ← Json.needed Json.text? docType⟩
      number := ← Json.needed Json.nat? number
      rangeId := ← Json.needed Json.text? rangeId
      state }
  | _ => none

/-- A row of the table of requests. -/
def RequestRow.toJson (r : RequestRow) : Json :=
  let state := match r.state with
    | .pending => stateMembers RequestStatus.pending.word none none
    | .accepted rangeId since =>
      stateMembers RequestStatus.accepted.word (some since) (some rangeId)
    | .rejected reason since => stateMembers RequestStatus.rejected.word (some since) (some reason)
    | .timedOut since => stateMembers RequestStatus.timedOut.word (some since) none
  .record (r.series.members ++ [
    ("tracking_id", .str r.trackingId),
    ("start", .nat r.first),
    ("end", .nat r.last),
    ("requested_at", .int r.requestedAt)] ++ state)

/-- The row of the table of requests that a record denotes. -/
def RequestRow.ofJson? (j : Json) : Option RequestRow := do
  match ← j.fields? ["issuer", "doc_type", "tracking_id", "start", "end", "requested_at", "state",
      "since", "detail"] with
  | [issuer, docType, trackingId, first, last, requestedAt, state, since, detail] =>
    let since ← Json.lenient Json.millis? since
    let detail ← Json.lenient Json.text? detail
    let state ← match ← Json.needed (Json.word? RequestStatus.ofWord?) state with
      | .pending => some RequestState.pending
      | .accepted => since.bind fun ms => detail.map (.accepted · ms)
      | .rejected => since.bind fun ms => detail.map (.rejected · ms)
      | .timedOut => since.map .timedOut
    some {
      series := ⟨← Json.needed Json.text? issuer, ← Json.needed Json.text? docType⟩
      trackingId := ← Json.needed Json.text? trackingId
      first := ← Json.needed Json.nat? first
      last := ← Json.needed Json.nat? last
      requestedAt := ← Json.needed Json.millis? requestedAt
      state }
  | _ => none

/-- A row of the table of locks. -/
def LockRow.toJson (l : LockRow) : Json :=
  .record [("key", .str l.key), ("token", .str l.token), ("fencing", .nat l.fencing),
    ("deadline", .int l.deadline)]

/-- The row of the table of locks that a record denotes. -/
def LockRow.ofJson? (j : Json) : Option LockRow := do
  match ← j.fields? ["key", "token", "fencing", "deadline"] with
  | [key, token, fencing, deadline] =>
    some {
      key := ← Json.needed Json.text? key
      token := ← Json.needed Json.text? token
      fencing := ← Json.needed Json.nat? fencing
      deadline := ← Json.needed Json.millis? deadline }
  | _ => none

namespace Store

/-- The document of a store. -/
def toJson (s : Store) : Json :=
  .record [
    ("ranges", .array (s.ranges.map RangeRecord.rowJson)),
    ("folios", .array (s.folios.map FolioRow.toJson)),
    ("requests", .array (s.requests.map RequestRow.toJson)),
    ("locks", .array (s.locks.map LockRow.toJson))]

/-- The rows of a table. -/
def rows? {Row : Type} (read : Json → Option Row) (j : Json) : Option (List Row) :=
  j.items?.bind fun items => items.mapM read

/-- The store that a document denotes. -/
def ofJson? (j : Json) : Option Store := do
  match ← j.fields? ["ranges", "folios", "requests", "locks"] with
  | [ranges, folios, requests, locks] =>
    some {
      ranges := ← Json.needed (rows? RangeRecord.ofRowJson?) ranges
      folios := ← Json.needed (rows? FolioRow.ofJson?) folios
      requests := ← Json.needed (rows? RequestRow.ofJson?) requests
      locks := ← Json.needed (rows? LockRow.ofJson?) locks }
  | _ => none

end Store

end FolioLedger
