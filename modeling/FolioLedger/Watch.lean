import FolioLedger.Desk
import FolioLedger.Store.Expiry

/-!
# The watch over validity

A sweep expires the ranges whose time has come and tells what is lost with them; warns once about
each range that is near expiry; and asks for a new range where the stock that lasts beyond the
warning window is low.  What a sweep has done stays done when it ends early.
-/

namespace FolioLedger

/-- How an activity ends that does not reach its end. -/
inductive Halt where
  | failed (failure : Failure)
  /-- A date left the calendar. -/
  | overflow
deriving DecidableEq

/-- What a sweep did. -/
structure SweepReport where
  /-- The active ranges that were looked at. -/
  checked : Nat
  expired : List String
  warned : List String
  /-- The series that a new range was asked for. -/
  triggered : List Series
deriving DecidableEq

/-- The document of a sweep report. -/
def SweepReport.toJson (r : SweepReport) : Json :=
  .record [
    ("checked", .nat r.checked),
    ("expired", .array (r.expired.map .str)),
    ("near_expiry_alerted", .array (r.warned.map .str)),
    ("replenish_triggered", .array (r.triggered.map fun s =>
      .record [("issuer", .str s.issuer), ("doc_type", .str s.docType)]))]

/-- How the watch is kept. -/
structure Watch where
  nearDays : Int
  /-- The stock at or below which a new range is asked for, if that is to be done. -/
  lowWater : Option Nat
deriving DecidableEq

namespace Watch

/-- The alert about a range that has expired. -/
def lossOf (s : Store) (r : Range) : Alert :=
  .rangeExpired r.series r.id (s.countOf r.id .available)

/-- The ranges that are near expiry. -/
def nearExpiry (w : Watch) (now : Instant) (active : List Range) : List Range :=
  active.filter fun r => (classifyValidity r.expiresAt now w.nearDays).1 = .nearExpiry

/-- Warns about a range, if that is still to be done. -/
def warn (w : Watch) (now : Instant) (s : Store) (r : Range) : Option Alert × Store :=
  let (first, s') := s.markNearExpiry r.id now
  let days := (classifyValidity r.expiresAt now w.nearDays).2
  (if first then some (.rangeNearExpiry r.series r.id days (s'.countOf r.id .available)) else none,
    s')

/-- Warns about each range of a list in turn; gives the ids and alerts of those warned about. -/
def warnAll (w : Watch) (now : Instant) (s : Store) : List Range → List (String × Alert) × Store
  | [] => ([], s)
  | r :: rs =>
    let (alert, s) := w.warn now s r
    let (warned, s) := w.warnAll now s rs
    ((alert.toList.map fun a => (r.id, a)) ++ warned, s)

/-- The series of some ranges, each once and in order. -/
def seriesOf (ranges : List Range) : List Series :=
  ((ranges.map (·.series)).eraseDups).mergeSort Series.precedes

/-- The trigger for a series whose lasting stock is low.  It carries the present stock, if that is
greater than the low water mark, so that the request is made even so. -/
def proactive (s : Store) (now cutoff : Instant) (lowWater : Nat) (series : Series) :
    Option Trigger :=
  if s.countAvailable series cutoff.toMillis ≤ lowWater then
    some ⟨series, max (s.countAvailable series now.toMillis) lowWater⟩
  else none

/-- The triggers for the series of ranges that are near expiry. -/
def triggers (w : Watch) (now : Instant) (s : Store) (near : List Range) :
    Except Halt (List Trigger) :=
  match w.lowWater with
  | none => .ok []
  | some lowWater =>
    match now.addDays? w.nearDays with
    | none => .error .overflow
    | some cutoff => .ok ((seriesOf near).filterMap (proactive s now cutoff lowWater))

/-- One sweep at an instant. -/
def sweep (w : Watch) (s : Store) (now : Instant) : Except Halt SweepReport × Store × Outbox :=
  match s.expire now with
  | .error failure => (.error (.failed failure), s, Outbox.empty)
  | .ok (expired, s) =>
    let losses := expired.map (lossOf s)
    match s.listRanges { status := some .active } with
    | .error failure => (.error (.failed failure), s, ⟨losses, []⟩)
    | .ok active =>
      let near := w.nearExpiry now active
      let (warned, s) := w.warnAll now s near
      let alerts := losses ++ warned.map (·.2)
      match w.triggers now s near with
      | .error halt => (.error halt, s, ⟨alerts, []⟩)
      | .ok triggers =>
        (.ok ⟨active.length, expired.map (·.id), warned.map (·.1), triggers.map (·.series)⟩, s,
          ⟨alerts, triggers⟩)

end Watch

end FolioLedger
