import FolioLedger.Store.Basic

/-!
# Usage reports

What became of the folios of a series in a period, and how much its active ranges still hold.
-/

namespace FolioLedger

/-- The folios of an active range, counted by state. -/
structure RangeUsage where
  rangeId : String
  first : Nat
  last : Nat
  expiresAt : Instant
  available : Nat
  used : Nat
  voided : Nat
deriving DecidableEq

/-- The folios of a series that were used or voided in a period. -/
structure UsageReport where
  series : Series
  start : Instant
  stop : Instant
  used : Nat
  voided : Nat
  /-- By number. -/
  folios : List Folio
  /-- Every active range, by first number. -/
  activeRanges : List RangeUsage
deriving DecidableEq

/-- The document of the usage of a range. -/
def RangeUsage.toJson (u : RangeUsage) : Json :=
  .record [
    ("range_id", .str u.rangeId),
    ("start", .nat u.first),
    ("end", .nat u.last),
    ("expires_at", .ofInstant u.expiresAt),
    ("available", .nat u.available),
    ("used", .nat u.used),
    ("voided", .nat u.voided)]

/-- The document of a usage report. -/
def UsageReport.toJson (r : UsageReport) : Json :=
  .record [
    ("issuer", .str r.series.issuer),
    ("doc_type", .str r.series.docType),
    ("from", .ofInstant r.start),
    ("to", .ofInstant r.stop),
    ("used", .nat r.used),
    ("voided", .nat r.voided),
    ("folios", .array (r.folios.map Folio.toJson)),
    ("active_ranges", .array (r.activeRanges.map RangeUsage.toJson))]

namespace Store

/-- Whether a folio was used or voided between two milliseconds, both included. -/
def changedWithin (f : FolioRow) (start stop : Millis) : Bool :=
  (f.state.usedAt.any fun ms => start ≤ ms ∧ ms ≤ stop) ||
    f.state.voidedAt.any fun ms => start ≤ ms ∧ ms ≤ stop

/-- The folios of a series that were used or voided between two milliseconds, by number. -/
def changedFolios (s : Store) (series : Series) (start stop : Millis) : List FolioRow :=
  ((s.foliosOf series).filter (changedWithin · start stop)).mergeSort (·.number ≤ ·.number)

/-- The folios of a range, counted by state. -/
def rangeUsage (s : Store) (r : RangeRow) : Except Failure RangeUsage := do
  return ⟨r.id, r.first, r.last, ← Instant.ofMillis r.expiresAt, s.countOf r.id .available,
    s.countOf r.id .used, s.countOf r.id .void⟩

/-- The active ranges of a series, by first number. -/
def activeRanges (s : Store) (series : Series) : List RangeRow :=
  (s.ranges.filter fun r => r.series = series ∧ r.status = .active).mergeSort (·.first ≤ ·.first)

/-- The report on a series for the period from `start` to `stop`. -/
def usageReport (s : Store) (series : Series) (start stop : Instant) :
    Except Failure UsageReport := do
  if stop < start then throw (.invalidRequest .periodReversed)
  let folios ← (s.changedFolios series start.toMillis stop.toMillis).mapM FolioRow.toFolio
  let ranges ← (s.activeRanges series).mapM s.rangeUsage
  return {
    series := series
    start := start
    stop := stop
    used := (folios.filter (·.status = .used)).length
    voided := (folios.filter (·.status = .void)).length
    folios := folios
    activeRanges := ranges }

end Store

end FolioLedger
