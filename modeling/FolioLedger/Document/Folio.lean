import FolioLedger.Json.Record
import FolioLedger.Series
import FolioLedger.Status

/-!
# Folios

A folio is one number of a series.  The document says what became of it.
-/

namespace FolioLedger

/-- A folio as it appears in documents. -/
structure Folio where
  series : Series
  number : Nat
  rangeId : String
  status : FolioStatus
  usedAt : Option Instant
  documentId : Option String
  voidedAt : Option Instant
  voidReason : Option String
deriving DecidableEq

namespace Folio

/-- The document of a folio. -/
def toJson (f : Folio) : Json :=
  .record [
    ("issuer", .str f.series.issuer),
    ("doc_type", .str f.series.docType),
    ("number", .nat f.number),
    ("range_id", .str f.rangeId),
    ("status", .str f.status.word),
    ("used_at", .optional .ofInstant f.usedAt),
    ("document_id", .optional .str f.documentId),
    ("voided_at", .optional .ofInstant f.voidedAt),
    ("void_reason", .optional .str f.voidReason)]

/-- The folio of a document. -/
def ofJson? (j : Json) : Option Folio := do
  match ← j.fields? ["issuer", "doc_type", "number", "range_id", "status", "used_at",
      "document_id", "voided_at", "void_reason"] with
  | [issuer, docType, number, rangeId, status, usedAt, documentId, voidedAt, voidReason] =>
    some {
      series := ⟨← Json.needed Json.text? issuer, ← Json.needed Json.text? docType⟩
      number := ← Json.needed Json.nat? number
      rangeId := ← Json.needed Json.text? rangeId
      status := ← Json.needed (Json.word? FolioStatus.ofWord?) status
      usedAt := ← Json.lenient Json.instant? usedAt
      documentId := ← Json.lenient Json.text? documentId
      voidedAt := ← Json.lenient Json.instant? voidedAt
      voidReason := ← Json.lenient Json.text? voidReason }
  | _ => none

end Folio

end FolioLedger
