import FolioLedger.Json.Record
import FolioLedger.Series

/-!
# Alerts

What operators are told.  In a document the kind stands beside the facts; in its array form it
stands before them.  The facts have to be readable as a whole, also the ones that are passed over.
-/

namespace FolioLedger

/-- Something that an operator should know. -/
inductive Alert where
  | rangeNearExpiry (series : Series) (rangeId : String) (daysLeft : Int) (remaining : Nat)
  /-- The available folios that are lost with the range are `remaining`. -/
  | rangeExpired (series : Series) (rangeId : String) (remaining : Nat)
  | replenishmentRejected (series : Series) (trackingId reason : String)
  | replenishmentTimedOut (series : Series) (trackingId : String)
  | ingestionFailed (series : Series) (trackingId reason : String)
  | foliosExhausted (series : Series)
deriving DecidableEq

namespace Alert

/-- The word for the kind of an alert. -/
def kind : Alert → String
  | rangeNearExpiry .. => "RANGE_NEAR_EXPIRY"
  | rangeExpired .. => "RANGE_EXPIRED"
  | replenishmentRejected .. => "REPLENISHMENT_REJECTED"
  | replenishmentTimedOut .. => "REPLENISHMENT_TIMED_OUT"
  | ingestionFailed .. => "INGESTION_FAILED"
  | foliosExhausted .. => "FOLIOS_EXHAUSTED"

/-- The series that an alert is about. -/
def series : Alert → Series
  | rangeNearExpiry s .. | rangeExpired s .. | replenishmentRejected s ..
  | replenishmentTimedOut s .. | ingestionFailed s .. | foliosExhausted s => s

/-- The facts of an alert besides its kind and series. -/
def facts : Alert → List (String × Json)
  | rangeNearExpiry _ rangeId daysLeft remaining =>
    [("range_id", .str rangeId), ("days_to_expiry", .int daysLeft), ("remaining", .nat remaining)]
  | rangeExpired _ rangeId remaining =>
    [("range_id", .str rangeId), ("remaining", .nat remaining)]
  | replenishmentRejected _ trackingId reason =>
    [("tracking_id", .str trackingId), ("reason", .str reason)]
  | replenishmentTimedOut _ trackingId => [("tracking_id", .str trackingId)]
  | ingestionFailed _ trackingId reason =>
    [("tracking_id", .str trackingId), ("reason", .str reason)]
  | foliosExhausted _ => []

/-- The document of an alert. -/
def toJson (a : Alert) : Json :=
  .record ([("kind", .str a.kind), ("issuer", .str a.series.issuer),
    ("doc_type", .str a.series.docType)] ++ a.facts)

/-! ## Reading -/

mutual

/-- How deep arrays and objects are nested. -/
def depth : Json → Nat
  | .array items => depthOfItems items + 1
  | .object members => depthOfMembers members + 1
  | _ => 0

def depthOfItems : List Json → Nat
  | [] => 0
  | item :: items => max (depth item) (depthOfItems items)

def depthOfMembers : List (Option String × Json) → Nat
  | [] => 0
  | (_, value) :: members => max (depth value) (depthOfMembers members)

end

mutual

/-- Whether every string is a text and every number finite. -/
def isReadable : Json → Bool
  | .string t => t.isSome
  | .real finite => finite
  | .array items => areReadableItems items
  | .object members => areReadableMembers members
  | _ => true

def areReadableItems : List Json → Bool
  | [] => true
  | item :: items => isReadable item && areReadableItems items

def areReadableMembers : List (Option String × Json) → Bool
  | [] => true
  | (key, value) :: members => key.isSome && isReadable value && areReadableMembers members

end

/-- Splits an alert into its kind and the document of its facts. -/
def split? : Json → Option (String × Json)
  | .object members =>
    match members.filter (·.1 = some "kind") with
    | [(_, .string (some kind))] => some (kind, .object (members.filter (·.1 ≠ some "kind")))
    | _ => none
  | .array (.string (some kind) :: items) => some (kind, .array items)
  | _ => none

/-- The facts under the given names; in the array form exactly as many. -/
def factsAt? (names : List String) (j : Json) : Option (List Json) := do
  (← j.fields? names).mapM id

/-- The alert of a kind with given facts. -/
def ofFacts? (kind : String) (j : Json) : Option Alert := do
  match kind with
  | "RANGE_NEAR_EXPIRY" =>
    match ← factsAt? ["issuer", "doc_type", "range_id", "days_to_expiry", "remaining"] j with
    | [issuer, docType, rangeId, daysLeft, remaining] =>
      some (.rangeNearExpiry ⟨← issuer.text?, ← docType.text?⟩ (← rangeId.text?)
        (← daysLeft.int64?) (← remaining.nat?))
    | _ => none
  | "RANGE_EXPIRED" =>
    match ← factsAt? ["issuer", "doc_type", "range_id", "remaining"] j with
    | [issuer, docType, rangeId, remaining] =>
      some (.rangeExpired ⟨← issuer.text?, ← docType.text?⟩ (← rangeId.text?) (← remaining.nat?))
    | _ => none
  | "REPLENISHMENT_REJECTED" =>
    match ← factsAt? ["issuer", "doc_type", "tracking_id", "reason"] j with
    | [issuer, docType, trackingId, reason] =>
      some (.replenishmentRejected ⟨← issuer.text?, ← docType.text?⟩ (← trackingId.text?)
        (← reason.text?))
    | _ => none
  | "REPLENISHMENT_TIMED_OUT" =>
    match ← factsAt? ["issuer", "doc_type", "tracking_id"] j with
    | [issuer, docType, trackingId] =>
      some (.replenishmentTimedOut ⟨← issuer.text?, ← docType.text?⟩ (← trackingId.text?))
    | _ => none
  | "INGESTION_FAILED" =>
    match ← factsAt? ["issuer", "doc_type", "tracking_id", "reason"] j with
    | [issuer, docType, trackingId, reason] =>
      some (.ingestionFailed ⟨← issuer.text?, ← docType.text?⟩ (← trackingId.text?)
        (← reason.text?))
    | _ => none
  | "FOLIOS_EXHAUSTED" =>
    match ← factsAt? ["issuer", "doc_type"] j with
    | [issuer, docType] => some (.foliosExhausted ⟨← issuer.text?, ← docType.text?⟩)
    | _ => none
  | _ => none

/-- The alert of a document, which may be nested at most 127 deep. -/
def ofJson? (j : Json) : Option Alert :=
  if isReadable j ∧ depth j ≤ 127 then
    (split? j).bind fun (kind, facts) => ofFacts? kind facts
  else none

end Alert

end FolioLedger
