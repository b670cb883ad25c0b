import FolioLedger.Store.Basic

/-!
# The record of requests

A series has at most one pending request, and tracking ids are unique.  A request is resolved once.
-/

namespace FolioLedger.Store

/-- The request with a tracking id. -/
def request? (s : Store) (trackingId : String) : Option RequestRow :=
  s.requests.find? (·.trackingId = trackingId)

/-- The request with a tracking id, as a document. -/
def getRequest (s : Store) (trackingId : String) : Except Failure ReplenishmentRequest :=
  match s.request? trackingId with
  | some row => row.toRequest
  | none => .error (.notFound (.request trackingId))

/-- The pending request of a series. -/
def pendingRequest (s : Store) (series : Series) :
    Except Failure (Option ReplenishmentRequest) :=
  (s.requests.find? fun r => r.series = series ∧ r.isPending).mapM RequestRow.toRequest

/-- Records a request that the authority took. -/
def recordRequest (s : Store) (r : ReplenishmentRequest) : Except Failure Store := do
  if r.status ≠ .pending then throw (.invalidRequest (.notPending r.status))
  checkNumber r.first
  checkNumber r.last
  if s.requests.any fun row =>
      row.trackingId = r.trackingId ∨ (row.series = r.series ∧ row.isPending) then
    throw (.invalidRequest (.alreadyRequested r.series r.trackingId))
  return { s with requests := s.requests ++
    [⟨r.trackingId, r.series, r.first, r.last, r.requestedAt.toMillis, .pending⟩] }

/-- Pending requests are listed oldest first, then by series. -/
def askedBefore (a b : RequestRow) : Bool :=
  if a.requestedAt = b.requestedAt then a.series.precedes b.series
  else a.requestedAt < b.requestedAt

/-- Every pending request, oldest first. -/
def pendingRequests (s : Store) : Except Failure (List ReplenishmentRequest) :=
  ((s.requests.filter (·.isPending)).mergeSort askedBefore).mapM RequestRow.toRequest

/-- The requests of a series, newest first. -/
def requestsOf (s : Store) (series : Series) : Except Failure (List ReplenishmentRequest) :=
  ((s.requests.filter (·.series = series)).mergeSort fun a b => b.requestedAt ≤ a.requestedAt).mapM
    RequestRow.toRequest

/-- Resolves a pending request. -/
def resolve (s : Store) (trackingId : String) (state : RequestState) : Except Failure Store :=
  if s.requests.any fun r => r.trackingId = trackingId ∧ r.isPending then
    .ok { s with requests := s.requests.map fun r =>
      if r.trackingId = trackingId ∧ r.isPending then { r with state := state } else r }
  else
    match s.getRequest trackingId with
    | .ok current =>
      .error (.invalidTransition (.resolving trackingId current.status state.status))
    | .error failure => .error failure

/-- Resolves a request with the range that it led to. -/
def markAccepted (s : Store) (trackingId rangeId : String) (now : Instant) :
    Except Failure Store :=
  s.resolve trackingId (.accepted rangeId now.toMillis)

/-- Resolves a request that led to nothing, with the reason. -/
def markRejected (s : Store) (trackingId reason : String) (now : Instant) :
    Except Failure Store :=
  s.resolve trackingId (.rejected reason now.toMillis)

/-- Resolves a request that the authority left open for too long. -/
def markTimedOut (s : Store) (trackingId : String) (now : Instant) : Except Failure Store :=
  s.resolve trackingId (.timedOut now.toMillis)

end FolioLedger.Store
