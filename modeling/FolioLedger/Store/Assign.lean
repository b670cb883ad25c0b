import FolioLedger.Store.Basic

/-!
# Handing out folios

The next folio of a series is the one with the least number among the available folios of active
ranges that have not expired.  When there is none, an expired range that still holds folios is
told apart from a series without any.
-/

namespace FolioLedger

/-- A folio that was handed out. -/
structure Assignment where
  folio : Folio
  /-- The folios of the series that can still be handed out. -/
  remaining : Nat
  /-- Whether this was the last available folio of its range. -/
  rangeExhausted : Bool
deriving DecidableEq

/-- The document of an assignment. -/
def Assignment.toJson (a : Assignment) : Json :=
  .record [
    ("folio", a.folio.toJson),
    ("remaining", .nat a.remaining),
    ("range_exhausted", .bool a.rangeExhausted)]

namespace Store

/-- Whether a range has expired by an instant, recorded or not. -/
def hasLapsed (r : RangeRow) (now : Millis) : Bool :=
  r.status = .expired || (r.status = .active && r.expiresAt ≤ now)

/-- The range with the latest expiry, the first of equal ones. -/
def latestExpiry (rows : List RangeRow) : Option RangeRow :=
  rows.foldl (fun best r =>
    match best with
    | none => some r
    | some b => if b.expiresAt < r.expiresAt then some r else some b) none

/-- The ranges of a series that have expired with folios left, first those that are still recorded
as active. -/
def lapsedRanges (s : Store) (series : Series) (now : Millis) : List RangeRow :=
  let lapsed := s.ranges.filter fun r => r.series = series ∧ hasLapsed r now ∧ s.hasStock r.id
  lapsed.filter (·.status = .active) ++ lapsed.filter (·.status = .expired)

/-- Why no folio can be handed out. -/
def shortage (s : Store) (series : Series) (now : Millis) : Failure :=
  match latestExpiry (s.lapsedRanges series now) with
  | some r =>
    match Instant.ofMillis r.expiresAt with
    | .ok expiredAt => .authorizationExpired series r.id expiredAt
    | .error failure => failure
  | none => .noFolioAvailable series

/-- Hands out the next folio of a series, to a document if one is named. -/
def assign (s : Store) (now : Instant) (series : Series) (document : Option String) :
    Except Failure (Assignment × Store) := do
  let ms := now.toMillis
  let some row := leastNumber (s.assignable series ms) | throw (s.shortage series ms)
  let state := FolioState.used ms document
  let folio ← { row with state := state }.toFolio
  let taken := s.setFolio series row.number state
  let settled := taken.settle row.rangeId
  return (⟨folio, settled.countAvailable series ms, taken.isSpent row.rangeId⟩, settled)

end Store

end FolioLedger
