import FolioLedger.Config.Basic
import FolioLedger.Replenish.Worker

/-!
# The engine

Desk, watch and replenishment over one store, with the work that goes on in the background: polls
that were taken up again, triggers that wait for the worker, polls that wait for their tick, and
the sweeps of the watch.  Background work happens only while time is let pass.  What is due at the
same moment is done in the order in which it began to wait, and triggers are worked off before
time goes on.
-/

namespace FolioLedger

/-- How an engine is set up. -/
structure Engine where
  workshop : Workshop
  desk : Desk
  watch : Watch
  /-- Milliseconds between the ticks of a poll. -/
  pollInterval : Nat
  /-- Milliseconds between sweeps. -/
  watchInterval : Nat

namespace Engine

/-- The engine with given settings. -/
def ofConfig (c : EngineConfig) (verifier : Verifier) (faulty : Option Nat) : Engine where
  workshop := ⟨c.monitor, verifier, faulty⟩
  desk := ⟨true, some c.lowWaterThreshold⟩
  watch := ⟨c.nearExpiryDays, some c.lowWaterThreshold⟩
  pollInterval := c.pollIntervalSecs * 1000
  watchInterval := c.watcherIntervalSecs * 1000

/-- What waits in the background. -/
inductive Job where
  /-- The poll of a recorded request, to be taken up. -/
  | takeUp (trackingId : String)
  | poll (p : Poll)
  | sweep
deriving DecidableEq

/-- A job and the moment for which it waits.  Serial numbers order jobs of the same moment. -/
structure Waiting where
  due : Nat
  serial : Nat
  job : Job
deriving DecidableEq

/-- The background of an engine: the milliseconds that have passed, the jobs that wait, and the
triggers that nobody has worked off. -/
structure Background where
  time : Nat := 0
  serial : Nat := 0
  waiting : List Waiting := []
  triggers : List Trigger := []
deriving DecidableEq

/-- A store and the background over it. -/
structure State where
  store : Store := {}
  background : Background := {}
deriving DecidableEq

/-- Lets a job wait for some milliseconds. -/
def Background.enqueue (b : Background) (delay : Nat) (job : Job) : Background :=
  { b with serial := b.serial + 1, waiting := b.waiting ++ [⟨b.time + delay, b.serial, job⟩] }

/-- The moment of the first job that waits. -/
def Background.nextDue (b : Background) : Option Nat :=
  b.waiting.foldl (fun best j => some (min j.due (best.getD j.due))) none

variable {m : Type → Type} [Monad m] (e : Engine) (world : World m)

/-- Lets the poll of a request wait for its first tick.  A poll whose deadline leaves the calendar
never begins, and keeps its lock. -/
def await (st : State) (request : ReplenishmentRequest) (lease : Lease) : State :=
  match Poll.start? e.workshop.monitor request lease with
  | some p => { st with background := st.background.enqueue e.pollInterval (.poll p) }
  | none => st

/-- Works off a trigger. -/
def handle (st : State) (t : Trigger) : m State := do
  let (outcome, store) ← e.workshop.trigger world st.store t.series t.threshold
  let st := { st with store := store }
  match outcome with
  | .ok (.submitted request lease) => return e.await st request lease
  | .ok (.pendingExists request lease) => return e.await st request lease
  | _ => return st

/-- Works off the triggers that wait. -/
def workOff (st : State) : m State := do
  let triggers := st.background.triggers
  let st := { st with background := { st.background with triggers := [] } }
  triggers.foldlM (e.handle world) st

/-- Does a job whose moment has come; gives the alerts that it raises. -/
def run (st : State) : Job → m (State × List Alert)
  | .takeUp trackingId => do
    match e.workshop.monitor.takeUp st.store (← world.now) (← world.freshToken) trackingId with
    | (.done _, store) => return ({ st with store := store }, [])
    | (.locked request lease, store) =>
      return (e.await { st with store := store } request lease, [])
  | .poll p => do
    let (p, outcome, store, alerts) ← e.workshop.tick world p st.store
    let st := { st with store := store }
    match outcome with
    | some _ => return (st, alerts)
    | none =>
      return ({ st with background := st.background.enqueue e.pollInterval (.poll p) }, alerts)
  | .sweep => do
    let (outcome, store, outbox) := e.watch.sweep st.store (← world.now)
    let b := { st.background with triggers := st.background.triggers ++ outbox.triggers }
    match outcome with
    | .error .overflow => return (⟨store, b⟩, outbox.alerts)
    | _ => return (⟨store, b.enqueue e.watchInterval .sweep⟩, outbox.alerts)

/-- Does jobs in turn. -/
def runAll (st : State) : List Waiting → m (State × List Alert)
  | [] => return (st, [])
  | j :: js => do
    let (st, alerts) ← e.run world st j.job
    let (st, more) ← runAll st js
    return (st, alerts ++ more)

/-- Works off triggers, then does what is due up to a moment, at most `fuel` moments of it. -/
def runUntil : Nat → State → Nat → m (State × List Alert)
  | 0, st, _ => return (st, [])
  | fuel + 1, st, target => do
    let st ← e.workOff world st
    match st.background.nextDue with
    | none => return ({ st with background := { st.background with time := target } }, [])
    | some due =>
      if target < due then
        return ({ st with background := { st.background with time := target } }, [])
      else
        let b := st.background
        let (now, later) := b.waiting.partition fun j => j.due ≤ due
        let st := { st with background := { b with time := max b.time due, waiting := later } }
        let (st, alerts) ← e.runAll world st now
        let (st, more) ← runUntil fuel st target
        return (st, alerts ++ more)

/-- The most moments at which something may be done in one stretch of time. -/
def maxMoments : Nat := 1000000

/-- Does the jobs that are to be taken up at once, then lets some milliseconds pass. -/
def pass (st : State) (ms : Nat) : m (State × List Alert) := do
  let b := st.background
  let (entries, others) := b.waiting.partition fun j =>
    match j.job with
    | .takeUp _ => true
    | _ => false
  let (st, alerts) ← e.runAll world { st with background := { b with waiting := others } } entries
  let (st, more) ← e.runUntil world maxMoments st (b.time + ms)
  return (st, alerts ++ more)

/-- Lets the poll of every pending request be taken up; gives their number. -/
def resume (st : State) : Except Failure (Nat × State) := do
  let pending ← st.store.pendingRequests
  let b := pending.foldl (fun (b : Background) r => b.enqueue 0 (.takeUp r.trackingId))
    st.background
  return (pending.length, { st with background := b })

/-- Begins the background work: pending requests first, then the worker and the watch. -/
def start (st : State) : Except Failure State := do
  let (_, st) ← resume st
  return { st with background := st.background.enqueue 0 .sweep }

/-- Ends the background work: polls give their locks back, and requests stay pending. -/
def stop (st : State) : State :=
  let store := st.background.waiting.foldl (fun store j =>
    match j.job with
    | .poll p => (p.cancel store).2
    | _ => store) st.store
  ⟨store, { st.background with waiting := [], triggers := [] }⟩

end Engine

end FolioLedger
