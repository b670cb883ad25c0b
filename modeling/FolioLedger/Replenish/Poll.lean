import FolioLedger.Replenish.Monitor

/-!
# Polling a request

A poll waits for the authority to resolve a request.  Each tick renews the lock of the series,
gives up after the deadline, and asks for the status.  An accepted request is ingested: the
artifact is fetched, verified and registered as a range, and then the request is resolved.

The steps are cut where the poll waits for somebody else and between any two of its changes to the
store, so that a run may stop or be overtaken at each cut.  A step takes the poll's place and gives
the next one.  The lock is given back on every way out.
-/

namespace FolioLedger

/-- A poll under way. -/
structure Poll where
  request : ReplenishmentRequest
  lease : Lease
  /-- From this instant on the request is given up. -/
  deadline : Instant
deriving DecidableEq

/-- How a poll ends. -/
inductive PollOutcome where
  | ingested (request : ReplenishmentRequest) (range : Range)
  /-- The request was resolved before the poll began. -/
  | alreadyResolved (request : ReplenishmentRequest)
  /-- The poll was called off; the request stays pending. -/
  | cancelled
deriving DecidableEq

/-- Where a poll stands. -/
inductive PollStage where
  /-- Until the next tick. -/
  | waiting
  /-- The status is being asked for, in a tick that found the request's time not over at an instant. -/
  | asking (since : Instant)
  /-- The artifact is being fetched. -/
  | fetching (location : String)
  /-- A verified range is to be registered. -/
  | registering (new : NewRange)
  /-- A registered range is to be named as the outcome of the request. -/
  | accepting (range : Range)
  /-- The request is to be closed after a failure that no later tick can mend. -/
  | rejecting (failure : Failure)
  | ended (outcome : Except Failure PollOutcome)

namespace Poll

/-- How long a poll may go on, in nanoseconds.  A time that does not fit the milliseconds of a
signed word of 64 bits becomes one day. -/
def patience (m : Monitor) : Nanos :=
  if m.pollTimeout ≤ 9223372036854775 then m.pollTimeout * 1000000000 else Instant.nanosPerDay

/-- The poll of a request under a lease, if its deadline can be represented. -/
def start? (m : Monitor) (request : ReplenishmentRequest) (lease : Lease) : Option Poll :=
  (request.requestedAt.add? (patience m)).map fun deadline => ⟨request, lease, deadline⟩

/-- Whether a failed ingestion is tried again at the next tick. -/
def mayRetry : Failure → Bool
  | .storage _ => true
  | failure => failure.isTransient

/-- Ends a poll and gives its lock back. -/
def finish (p : Poll) (s : Store) (outcome : Except Failure PollOutcome) : PollStage × Store :=
  (.ended outcome, s.release p.lease)

/-- The stage after an ingestion that failed. -/
def afterFailure (failure : Failure) : PollStage :=
  if mayRetry failure then .waiting else .rejecting failure

/-- A tick: the lock is renewed `now`, and the request given up if its time is over `later`, at the
next reading of the clock. -/
def tick (p : Poll) (m : Monitor) (s : Store) (now later : Instant) :
    (PollStage × Poll) × Store × List Alert :=
  match s.renew now m.lockTtl p.lease with
  | (.error failure, s) =>
    let (stage, s) := p.finish s (.error failure)
    ((stage, p), s, [])
  | (.ok lease, s) =>
    let p := { p with lease := lease }
    if p.deadline ≤ later then
      match s.markTimedOut p.request.trackingId later with
      | .error failure =>
        let (stage, s) := p.finish s (.error failure)
        ((stage, p), s, [])
      | .ok s =>
        let (stage, s) := p.finish s (.error (.authorityTimeout p.request.trackingId))
        ((stage, p), s, [.replenishmentTimedOut p.request.series p.request.trackingId])
    else ((.asking later, p), s, [])

/-- What follows from the status of the request. -/
def answered (p : Poll) (s : Store) (since : Instant)
    (answer : Except Failure AuthorityStatus) : PollStage × Store × List Alert :=
  match answer with
  | .error failure =>
    if failure.isTransient then (.waiting, s, [])
    else
      let (stage, s) := p.finish s (.error failure)
      (stage, s, [])
  | .ok .pending => (.waiting, s, [])
  | .ok (.rejected reason) =>
    match s.markRejected p.request.trackingId reason since with
    | .error failure =>
      let (stage, s) := p.finish s (.error failure)
      (stage, s, [])
    | .ok s =>
      let (stage, s) := p.finish s (.error (.authorityRejected p.request.trackingId reason))
      (stage, s, [.replenishmentRejected p.request.series p.request.trackingId reason])
  | .ok (.accepted location) => (.fetching location, s, [])

/-- The range that a verified artifact stands for, if it is the one that was asked for. -/
def rangeOf (p : Poll) (a : VerifiedArtifact) : Except Failure NewRange :=
  if a.first = p.request.first ∧ a.last = p.request.last then
    .ok {
      series := p.request.series
      first := a.first
      last := a.last
      authorizedAt := a.authorizedAt
      expiresAt := a.expiresAt
      artifactHash := some a.hash
      trackingId := some p.request.trackingId }
  else
    .error (.invalidArtifact (.otherBounds a.first a.last p.request.first p.request.last))

/-- What follows from the artifact. -/
def delivered (p : Poll) (v : Verifier) (now : Instant) (answer : Except Failure ByteArray) :
    PollStage :=
  match (do p.rangeOf (← v.verify (← answer) p.request.series now)) with
  | .ok new => .registering new
  | .error failure => afterFailure failure

/-- Registers the range.  If an earlier attempt did so already, that range is taken. -/
def register (p : Poll) (m : Monitor) (faulty : Option Nat) (s : Store) (id : String)
    (now : Instant) (new : NewRange) : PollStage × Store :=
  match s.register m.maxRangeSize faulty id now new with
  | .ok (range, s) => (.accepting range, s)
  | .error (.rangeOverlap series first last existing) =>
    match s.getRange existing with
    | .error failure => (afterFailure failure, s)
    | .ok range =>
      if range.trackingId = some p.request.trackingId then (.accepting range, s)
      else (afterFailure (.rangeOverlap series first last existing), s)
  | .error failure => (afterFailure failure, s)

/-- Resolves the request with the range. -/
def accept (p : Poll) (s : Store) (now : Instant) (range : Range) : PollStage × Store :=
  match s.markAccepted p.request.trackingId range.id now with
  | .error failure => (afterFailure failure, s)
  | .ok s =>
    match s.getRequest p.request.trackingId with
    | .error failure => p.finish s (.error failure)
    | .ok request => p.finish s (.ok (.ingested request range))

/-- Closes the request after a failed ingestion. -/
def reject (p : Poll) (s : Store) (now : Instant) (failure : Failure) :
    PollStage × Store × List Alert :=
  match s.markRejected p.request.trackingId failure.message now with
  | .error other =>
    let (stage, s) := p.finish s (.error other)
    (stage, s, [])
  | .ok s =>
    let (stage, s) := p.finish s (.error failure)
    (stage, s, [.ingestionFailed p.request.series p.request.trackingId failure.message])

/-- Calls the poll off. -/
def cancel (p : Poll) (s : Store) : PollStage × Store :=
  p.finish s (.ok .cancelled)

end Poll

/-! ## Beginning a poll -/

/-- What happens when the poll of a recorded request is taken up. -/
inductive PollEntry where
  | done (outcome : Except Failure PollOutcome)
  /-- The lock of the series is held for the poll. -/
  | locked (request : ReplenishmentRequest) (lease : Lease)

/-- Takes up the poll of a request, unless it is resolved or its series is locked. -/
def Monitor.takeUp (m : Monitor) (s : Store) (now : Instant) (token trackingId : String) :
    PollEntry × Store :=
  match s.getRequest trackingId with
  | .error failure => (.done (.error failure), s)
  | .ok request =>
    if request.status.isFinal then (.done (.ok (.alreadyResolved request)), s)
    else
      match s.acquire now m.lockTtl token (Lock.replenishment request.series) with
      | (.error failure, s) => (.done (.error failure), s)
      | (.ok lease, s) => (.locked request lease, s)

end FolioLedger
