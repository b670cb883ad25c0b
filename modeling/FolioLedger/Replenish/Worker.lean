import FolioLedger.Replenish.Poll

/-!
# Working off triggers and polls

The steps of triggers and polls put together with the world outside: the clock, fresh names and
the authority.  Everything here is a sequence of those steps; the world may be a state in memory
as well as the real one.
-/

namespace FolioLedger

/-- The world outside the store. -/
structure World (m : Type → Type) where
  authority : Authority m
  now : m Instant
  /-- A token for a lease that was never used before. -/
  freshToken : m String
  /-- An id for a range that was never used before. -/
  freshRangeId : m String
  /-- Whether polls are called off. -/
  isCancelled : m Bool
  /-- Waits for some milliseconds. -/
  pause : Nat → m Unit

/-- What the work on requests needs to know. -/
structure Workshop where
  monitor : Monitor
  verifier : Verifier
  /-- A number whose folio the medium refuses. -/
  faulty : Option Nat

namespace Workshop

variable {m : Type → Type} [Monad m] (w : Workshop) (world : World m)

/-- Carries a trigger through, from the lock to the record of the request. -/
def trigger (s : Store) (series : Series) (threshold : Nat) :
    m (Except Failure TriggerOutcome × Store) := do
  match w.monitor.prepare s (← world.now) (← world.now) (← world.freshToken) series threshold with
  | (.done outcome, s) => return (outcome, s)
  | (.submit draft, s) => return Monitor.record s draft (← world.authority.submit draft.request)

/-- Goes one step on from a stage that does not wait for the next tick. -/
def advance (p : Poll) (s : Store) : PollStage → m (PollStage × Store × List Alert)
  | .asking since => do
    return p.answered s since (← world.authority.status p.request.trackingId)
  | .fetching location => do
    let answer ← world.authority.download location
    return (p.delivered w.verifier (← world.now) answer, s, [])
  | .registering new => do
    let (stage, s) := p.register w.monitor w.faulty s (← world.freshRangeId) (← world.now) new
    return (stage, s, [])
  | .accepting range => do
    let (stage, s) := p.accept s (← world.now) range
    return (stage, s, [])
  | .rejecting failure => do return p.reject s (← world.now) failure
  | stage => return (stage, s, [])

/-- Goes on until the poll waits or ends.  Five steps lead there from anywhere. -/
def advanceAll : Nat → Poll → Store → PollStage → m (PollStage × Store × List Alert)
  | 0, _, s, stage => return (stage, s, [])
  | fuel + 1, p, s, stage =>
    match stage with
    | .waiting => return (.waiting, s, [])
    | .ended outcome => return (.ended outcome, s, [])
    | stage => do
      let (stage, s, alerts) ← w.advance world p s stage
      let (stage, s, more) ← advanceAll fuel p s stage
      return (stage, s, alerts ++ more)

/-- One tick of a poll and all that follows from it.  The poll goes on if no outcome is given. -/
def tick (p : Poll) (s : Store) :
    m (Poll × Option (Except Failure PollOutcome) × Store × List Alert) := do
  let ((stage, p), s, alerts) := p.tick w.monitor s (← world.now) (← world.now)
  let (stage, s, more) ← w.advanceAll world 5 p s stage
  let outcome := match stage with
    | .ended outcome => some outcome
    | _ => none
  return (p, outcome, s, alerts ++ more)

/-- Polls every `interval` milliseconds until the poll ends or is called off, at most `ticks`
times. -/
def poll (interval : Nat) : Nat → Poll → Store → m (Except Failure PollOutcome × Store × List Alert)
  | 0, p, s => do
    let (_, s) := p.cancel s
    return (.ok .cancelled, s, [])
  | ticks + 1, p, s => do
    if ← world.isCancelled then
      let (_, s) := p.cancel s
      return (.ok .cancelled, s, [])
    world.pause interval
    if ← world.isCancelled then
      let (_, s) := p.cancel s
      return (.ok .cancelled, s, [])
    let (p, outcome, s, alerts) ← w.tick world p s
    match outcome with
    | some outcome => return (outcome, s, alerts)
    | none =>
      let (outcome, s, more) ← poll interval ticks p s
      return (outcome, s, alerts ++ more)

end Workshop

end FolioLedger
