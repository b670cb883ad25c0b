import FolioLedger.Replenish.Poll
import FolioLedger.Store.Assign
import FolioLedger.Store.Expiry
import FolioLedger.Store.Usage
import FolioLedger.Text.Cell
import FolioLedger.Text.Csv
import FolioLedger.Watch

/-!
# Results in words

How results are told to people, line by line, and the table of a report for other programs.
-/

namespace FolioLedger.Cli

/-- Lines, each with its end. -/
def lines (ls : List String) : String :=
  String.join (ls.map (· ++ "\n"))

/-- A number in a line. -/
def number (n : Nat) : String := Numeral.padded 1 n

/-- The day of an instant. -/
def day (t : Instant) : String := t.date.render

/-! ## Ranges -/

def registeredText (r : Range) : String :=
  lines ["registered " ++ r.id ++ " " ++ r.series.label ++ " " ++ boundsText r.first r.last ++
    " (expires " ++ day r.expiresAt ++ ")"]

/-- A line of the table of ranges. -/
def rangeRow (id issuer docType first last status expires : String) : String :=
  Cell.left 36 id ++ "  " ++ Cell.left 12 issuer ++ " " ++ Cell.left 4 docType ++ " " ++
    Cell.right 10 first ++ " " ++ Cell.right 10 last ++ "  " ++ Cell.left 9 status ++ "  " ++
    expires

def rangesText (ranges : List Range) : String :=
  if ranges.isEmpty then lines ["no ranges"]
  else lines (rangeRow "RANGE" "ISSUER" "TYPE" "START" "END" "STATUS" "EXPIRES" ::
    ranges.map fun r => rangeRow r.id r.series.issuer r.series.docType (number r.first)
      (number r.last) r.status.word (day r.expiresAt))

def rangeReportText (r : RangeReport) : String :=
  lines [
    "range:     " ++ r.range.id,
    "series:    " ++ r.range.series.label,
    "numbers:   " ++ boundsText r.range.first r.range.last,
    "status:    " ++ r.range.status.word,
    "validity:  " ++ r.validity.label ++ " (" ++ Numeral.signed r.daysLeft ++ " days left)",
    "folios:    " ++ number r.available ++ " available, " ++ number r.used ++ " used, " ++
      number r.voided ++ " void"]

def sweepText (r : SweepReport) : String :=
  lines (
    ("checked " ++ number r.checked ++ " active ranges: " ++ number r.expired.length ++
      " expired, " ++ number r.warned.length ++ " near expiry") ::
    r.expired.map ("  expired      " ++ ·) ++
    r.warned.map ("  near expiry  " ++ ·) ++
    r.triggered.map fun s => "  replenish    " ++ s.label ++
      " (run \x60folio replenish\x60 or \x60folio serve\x60)")

/-! ## Folios -/

/-- What is said of a folio's past, as far as it has one. -/
def folioDetails (f : Folio) : String :=
  lines (
    ["folio:     " ++ f.series.label ++ "/" ++ number f.number,
      "status:    " ++ f.status.word,
      "range:     " ++ f.rangeId] ++
    (f.usedAt.toList.map fun t => "used at:   " ++ t.renderOffset) ++
    (f.documentId.toList.map ("document:  " ++ ·)) ++
    (f.voidedAt.toList.map fun t => "voided at: " ++ t.renderOffset) ++
    (f.voidReason.toList.map ("reason:    " ++ ·)))

def assignmentText (a : Assignment) : String :=
  lines [number a.folio.number]

def lowStockText (series : Series) (remaining : Nat) : String :=
  lines ["warning: " ++ number remaining ++ " folios left for " ++ series.label]

/-! ## Usage reports -/

def usageText (r : UsageReport) : String :=
  lines (
    (r.series.label ++ " from " ++ day r.start ++ " to " ++ day r.stop ++ ": " ++
      number r.used ++ " used, " ++ number r.voided ++ " void") ::
    (r.folios.map fun f => "  " ++ Cell.right 10 (number f.number) ++ "  " ++
      Cell.left 5 f.status.word ++ "  " ++ (f.documentId.or f.voidReason).getD "-") ++
    r.activeRanges.map fun u => "  range " ++ u.rangeId ++ " " ++ boundsText u.first u.last ++
      " expires " ++ day u.expiresAt ++ ": " ++ number u.available ++ " available, " ++
      number u.used ++ " used, " ++ number u.voided ++ " void")

/-- The names of the columns of a report. -/
def usageColumns : List String :=
  ["issuer", "doc_type", "number", "status", "range_id", "at", "document_id", "void_reason"]

/-- The fields of a folio in a report; what is absent is empty. -/
def usageFields (f : Folio) : List String :=
  [f.series.issuer, f.series.docType, number f.number, f.status.word, f.rangeId,
    ((f.usedAt.or f.voidedAt).map Instant.renderOffset).getD "", f.documentId.getD "",
    f.voidReason.getD ""]

/-- The report as a table: the names of the columns, then a record for each folio. -/
def usageCsv (r : UsageReport) : String :=
  Csv.render (usageColumns :: r.folios.map usageFields)

/-! ## Requests -/

def requestsText (requests : List ReplenishmentRequest) : String :=
  if requests.isEmpty then lines ["no requests"]
  else lines (requests.map fun r =>
    Cell.left 24 r.trackingId ++ " " ++ Cell.right 10 (number r.first) ++ "..=" ++
      Cell.left 10 (number r.last) ++ " " ++ Cell.left 9 r.status.word ++ " " ++
      day r.requestedAt ++ " " ++ r.requestedAt.renderMinute ++ " " ++ r.reason.getD "")

/-- What became of the call for a new range. -/
inductive Replenishment where
  | alreadyInFlight
  | aboveThreshold (remaining : Nat)
  /-- The request waits for the authority. -/
  | pending (request : ReplenishmentRequest)
  | ended (request : ReplenishmentRequest) (outcome : PollOutcome)

/-- What became of the call, as a document. -/
def Replenishment.toJson : Replenishment → Json
  | alreadyInFlight => .record [("outcome", .str "ALREADY_IN_FLIGHT")]
  | aboveThreshold remaining =>
    .record [("outcome", .str "ABOVE_THRESHOLD"), ("remaining", .nat remaining)]
  | pending request => .record [("outcome", .str "PENDING"), ("request", request.toJson)]
  | ended _ (.ingested request range) =>
    .record [("outcome", .str "INGESTED"), ("request", request.toJson), ("range", range.toJson)]
  | ended _ (.alreadyResolved request) =>
    .record [("outcome", .str "ALREADY_RESOLVED"), ("request", request.toJson)]
  | ended request .cancelled =>
    .record [("outcome", .str "CANCELLED"), ("request", request.toJson)]

def Replenishment.text (series : Series) (threshold : Nat) : Replenishment → String
  | alreadyInFlight =>
    lines ["replenishment for " ++ series.label ++ " is already in flight"]
  | aboveThreshold remaining =>
    lines [number remaining ++ " folios left for " ++ series.label ++ ", above " ++
      number threshold]
  | pending request =>
    lines ["request " ++ request.trackingId ++ " for " ++ boundsText request.first request.last ++
      " is pending"]
  | ended _ (.ingested _ range) =>
    lines ["ingested range " ++ range.id ++ " " ++ boundsText range.first range.last ++
      " (expires " ++ day range.expiresAt ++ ")"]
  | ended _ (.alreadyResolved request) | ended request .cancelled =>
    lines ["request " ++ request.trackingId ++ " is " ++ request.status.word]

def pollingText (request : ReplenishmentRequest) (interval : Nat) : String :=
  lines ["polling request " ++ request.trackingId ++ " every " ++ number interval ++
    "s (Ctrl-C to stop)"]

end FolioLedger.Cli
