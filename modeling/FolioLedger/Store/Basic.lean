import FolioLedger.Document.Folio
import FolioLedger.Document.Range
import FolioLedger.Document.Request
import FolioLedger.Failure

/-!
# The store

Four tables in the order of insertion: ranges, folios, requests and locks.  Times are kept in
milliseconds.  What became of a folio or a request is one value, so that a time, a document or a
reason is there exactly in the state that it belongs to.  The columns that stand for such a value,
and the statements that set them, are in `Proofs.Ledger.Columns`.
-/

namespace FolioLedger

/-- What became of a folio. -/
inductive FolioState where
  | available
  | used (since : Millis) (document : Option String)
  | void (since : Millis) (reason : String)
deriving DecidableEq

/-- A row of the table of folios. -/
structure FolioRow where
  series : Series
  number : Nat
  rangeId : String
  state : FolioState
deriving DecidableEq

/-- A row of the table of ranges. -/
abbrev RangeRow := RangeRecord Millis

/-- What became of a request. -/
inductive RequestState where
  | pending
  | accepted (rangeId : String) (since : Millis)
  | rejected (reason : String) (since : Millis)
  | timedOut (since : Millis)
deriving DecidableEq

/-- A row of the table of requests. -/
structure RequestRow where
  trackingId : String
  series : Series
  first : Nat
  last : Nat
  requestedAt : Millis
  state : RequestState
deriving DecidableEq

/-- A row of the table of locks.  A deadline of 0 marks a lock that was released. -/
structure LockRow where
  key : String
  token : String
  fencing : Nat
  deadline : Millis
deriving DecidableEq

/-- The tables. -/
structure Store where
  ranges : List RangeRow := []
  folios : List FolioRow := []
  requests : List RequestRow := []
  locks : List LockRow := []
deriving DecidableEq

/-! ## From rows to documents -/

namespace RangeRecord

/-- The document of a row. -/
def toRange (r : RangeRow) : Except Failure Range := do
  return {
    id := r.id
    series := r.series
    first := r.first
    last := r.last
    authorizedAt := ← Instant.ofMillis r.authorizedAt
    expiresAt := ← Instant.ofMillis r.expiresAt
    status := r.status
    artifactHash := r.artifactHash
    trackingId := r.trackingId
    registeredAt := ← Instant.ofMillis r.registeredAt
    nearExpiryAlertedAt := ← r.nearExpiryAlertedAt.mapM Instant.ofMillis }

end RangeRecord

namespace FolioState

def status : FolioState → FolioStatus
  | available => .available
  | used .. => .used
  | void .. => .void

/-- When the folio was used. -/
def usedAt : FolioState → Option Millis
  | used since _ => some since
  | _ => none

/-- The document that the folio was used for. -/
def document : FolioState → Option String
  | used _ document => document
  | _ => none

/-- When the folio was voided. -/
def voidedAt : FolioState → Option Millis
  | void since _ => some since
  | _ => none

/-- Why the folio was voided. -/
def voidReason : FolioState → Option String
  | void _ reason => some reason
  | _ => none

end FolioState

namespace FolioRow

/-- Whether the folio can still be handed out or voided. -/
def isAvailable (f : FolioRow) : Bool :=
  f.state == .available

/-- The document of a row. -/
def toFolio (f : FolioRow) : Except Failure Folio := do
  return {
    series := f.series
    number := f.number
    rangeId := f.rangeId
    status := f.state.status
    usedAt := ← f.state.usedAt.mapM Instant.ofMillis
    documentId := f.state.document
    voidedAt := ← f.state.voidedAt.mapM Instant.ofMillis
    voidReason := f.state.voidReason }

end FolioRow

namespace RequestState

def status : RequestState → RequestStatus
  | pending => .pending
  | accepted .. => .accepted
  | rejected .. => .rejected
  | timedOut _ => .timedOut

/-- The range that an accepted request led to. -/
def rangeId : RequestState → Option String
  | accepted rangeId _ => some rangeId
  | _ => none

/-- Why the request was rejected. -/
def reason : RequestState → Option String
  | rejected reason _ => some reason
  | _ => none

/-- When the request was resolved. -/
def resolvedAt : RequestState → Option Millis
  | pending => none
  | accepted _ since | rejected _ since | timedOut since => some since

end RequestState

namespace RequestRow

def isPending (r : RequestRow) : Bool :=
  r.state == .pending

/-- The document of a row. -/
def toRequest (r : RequestRow) : Except Failure ReplenishmentRequest := do
  return {
    trackingId := r.trackingId
    series := r.series
    first := r.first
    last := r.last
    status := r.state.status
    reason := r.state.reason
    rangeId := r.state.rangeId
    requestedAt := ← Instant.ofMillis r.requestedAt
    resolvedAt := ← r.state.resolvedAt.mapM Instant.ofMillis }

end RequestRow

/-! ## Looking up -/

/-- The largest number that the store can hold. -/
def maxNumber : Nat := 9223372036854775807

/-- Refuses a number that the store cannot hold. -/
def checkNumber (n : Nat) : Except Failure Unit :=
  if maxNumber < n then .error (.invalidRange (.numberTooLarge n)) else .ok ()

/-- The row with the least number, the first of equal ones. -/
def leastNumber (rows : List FolioRow) : Option FolioRow :=
  rows.foldl (fun best f =>
    match best with
    | none => some f
    | some b => if f.number < b.number then some f else some b) none

/-- The greatest of some numbers. -/
def greatest (numbers : List Nat) : Option Nat :=
  numbers.foldl (fun best n => some (max n (best.getD 0))) none

namespace Store

/-- The store without rows. -/
def empty : Store := {}

/-- The range with an id. -/
def range? (s : Store) (id : String) : Option RangeRow :=
  s.ranges.find? (·.id = id)

/-- The range with an id, as a document. -/
def getRange (s : Store) (id : String) : Except Failure Range :=
  match s.range? id with
  | some row => row.toRange
  | none => .error (.notFound (.range id))

/-- The folio with a number. -/
def folio? (s : Store) (series : Series) (number : Nat) : Option FolioRow :=
  s.folios.find? fun f => f.series = series ∧ f.number = number

/-- The folio with a number, as a document. -/
def getFolio (s : Store) (series : Series) (number : Nat) : Except Failure Folio := do
  checkNumber number
  match s.folio? series number with
  | some row => row.toFolio
  | none => .error (.notFound (.folio series number))

/-- The folios of a series. -/
def foliosOf (s : Store) (series : Series) : List FolioRow :=
  s.folios.filter (·.series = series)

/-- Whether a range is active and expires after an instant. -/
def isLive (s : Store) (rangeId : String) (now : Millis) : Bool :=
  s.ranges.any fun r => r.id = rangeId ∧ r.status = .active ∧ now < r.expiresAt

/-- The folios of a series that can be handed out at an instant. -/
def assignable (s : Store) (series : Series) (now : Millis) : List FolioRow :=
  (s.foliosOf series).filter fun f => f.isAvailable ∧ s.isLive f.rangeId now

/-- The number of folios that can be handed out at an instant. -/
def countAvailable (s : Store) (series : Series) (now : Millis) : Nat :=
  (s.assignable series now).length

/-- The greatest number of a series, whatever its state. -/
def maxNumber? (s : Store) (series : Series) : Option Nat :=
  greatest ((s.foliosOf series).map (·.number))

/-- The greatest number of a series that was used or voided. -/
def maxIssued? (s : Store) (series : Series) : Option Nat :=
  greatest (((s.foliosOf series).filter (¬ ·.isAvailable)).map (·.number))

/-- Whether a range holds available folios. -/
def hasStock (s : Store) (rangeId : String) : Bool :=
  s.folios.any fun f => f.rangeId = rangeId ∧ f.isAvailable

/-- The number of folios of a range with a status. -/
def countOf (s : Store) (rangeId : String) (status : FolioStatus) : Nat :=
  (s.folios.filter fun f => f.rangeId = rangeId ∧ f.state.status = status).length

/-- Puts the folio with a number into a state. -/
def setFolio (s : Store) (series : Series) (number : Nat) (state : FolioState) : Store :=
  { s with folios := s.folios.map fun f =>
      if f.series = series ∧ f.number = number then { f with state := state } else f }

/-- Puts every range that meets a condition into a status. -/
def setStatus (s : Store) (condition : RangeRow → Bool) (status : RangeStatus) : Store :=
  { s with ranges := s.ranges.map fun r => if condition r then { r with status := status } else r }

/-- Marks an active range without available folios as exhausted. -/
def settle (s : Store) (rangeId : String) : Store :=
  if s.hasStock rangeId then s
  else s.setStatus (fun r => r.id = rangeId ∧ r.status = .active) .exhausted

/-- Whether settling a range would mark it as exhausted. -/
def isSpent (s : Store) (rangeId : String) : Bool :=
  !s.hasStock rangeId && s.ranges.any fun r => r.id = rangeId ∧ r.status = .active

end Store

end FolioLedger
