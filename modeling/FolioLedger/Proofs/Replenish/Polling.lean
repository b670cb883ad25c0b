import FolioLedger.Proofs.Ledger.Coverage
import FolioLedger.Proofs.Ledger.Deeds

/-!
# Polls step by step

A poll goes from one stage to the next when its turn comes: the clock is read, the authority
answers, the store takes a change.  `PollStep` is what the world has to say to such a turn, and
`Polling.go` is the turn.  Between two turns others may act, so what happens while a poll is under
way is a list of `Happening`s.  A tick of a `Workshop` is a row of turns, and it comes to rest: after it
the poll waits or has ended (`Workshop.tick_follows`).
-/

namespace FolioLedger

open Store

/-- What a turn of a poll is given: readings of the clock, answers, a fresh id. -/
inductive PollStep where
  /-- A tick reads the clock twice. -/
  | tick (now later : Instant)
  | answered (answer : Except Failure AuthorityStatus)
  | delivered (now : Instant) (answer : Except Failure ByteArray)
  /-- `faulty` is a number whose folio the medium refuses. -/
  | register (faulty : Option Nat) (id : String) (now : Instant)
  | accept (now : Instant)
  | reject (now : Instant)
  | cancel

/-- Whether a turn is that of a poll that wakes up. -/
def PollStep.isTick : PollStep → Bool
  | .tick .. => true
  | _ => false

/-- A poll, where it stands, and the alerts that it has given. -/
structure Polling where
  poll : Poll
  stage : PollStage
  alerts : List Alert

/-- A poll before its first tick. -/
def Poll.begun (p : Poll) : Polling := ⟨p, .waiting, []⟩

/-- Whether a poll has nothing left to do. -/
def PollStage.HasEnded : PollStage → Prop
  | .ended _ => True
  | _ => False

/-- The outcome of a poll, once it has ended. -/
def PollStage.outcome? : PollStage → Option (Except Failure PollOutcome)
  | .ended outcome => some outcome
  | _ => none

/-- Whether a poll waits for its next tick, or has nothing left to do. -/
def PollStage.AtRest : PollStage → Prop
  | .waiting | .ended _ => True
  | _ => False

/-- What happens while a poll is under way: a turn of its own, or an event of somebody else. -/
inductive Happening where
  | own (step : PollStep)
  | other (e : Event)

/-- The turn of the poll that a happening is. -/
def Happening.own? : Happening → Option PollStep
  | .own step => some step
  | .other _ => none

/-! ## What a turn leads to -/

namespace Poll

variable (p : Poll) (s : Store)

/-- A failed ingestion is tried again at the next tick, or closes the request. -/
theorem afterFailure_cases (failure : Failure) :
    afterFailure failure = .waiting ∨
      afterFailure failure = .rejecting failure ∧ mayRetry failure = false := by
  unfold afterFailure
  split
  · exact .inl rfl
  · next hnever => exact .inr ⟨rfl, by simpa using hnever⟩

/-- A tick asks for the status, or ends the poll. -/
theorem tick_cases (m : Monitor) (now later : Instant) :
    (p.tick m s now later).1.1 = .asking later ∨
      ∃ outcome, (p.tick m s now later).1.1 = .ended outcome := by
  unfold tick
  split
  · exact .inr ⟨_, rfl⟩
  · simp only
    split
    · split <;> exact .inr ⟨_, rfl⟩
    · exact .inl rfl

theorem answered_cases (since : Instant) (answer : Except Failure AuthorityStatus) :
    (p.answered s since answer).1 = .waiting ∨
      (∃ location, (p.answered s since answer).1 = .fetching location) ∨
        ∃ outcome, (p.answered s since answer).1 = .ended outcome := by
  unfold answered
  split
  · split
    · exact .inl rfl
    · exact .inr (.inr ⟨_, rfl⟩)
  · exact .inl rfl
  · split <;> exact .inr (.inr ⟨_, rfl⟩)
  · exact .inr (.inl ⟨_, rfl⟩)

/-- The artifact stands for the range that was asked for, or the ingestion failed. -/
theorem delivered_cases (v : Verifier) (now : Instant) (answer : Except Failure ByteArray) :
    (∃ bytes a new, answer = .ok bytes ∧ v.verify bytes p.request.series now = .ok a ∧
      p.rangeOf a = .ok new ∧ p.delivered v now answer = .registering new) ∨
    ∃ failure, p.delivered v now answer = afterFailure failure := by
  unfold delivered
  split
  · next new h =>
    obtain ⟨bytes, hbytes, h⟩ := bind_eq_ok.1 h
    obtain ⟨a, ha, h⟩ := bind_eq_ok.1 h
    exact .inl ⟨bytes, a, new, hbytes, ha, h, rfl⟩
  · exact .inr ⟨_, rfl⟩

/-- The range is registered now, or it was before, or the ingestion failed. -/
theorem register_cases (m : Monitor) (faulty : Option Nat) (id : String) (now : Instant)
    (new : NewRange) :
    (∃ range t, s.register m.maxRangeSize faulty id now new = .ok (range, t) ∧
      p.register m faulty s id now new = (.accepting range, t)) ∨
    (∃ existing range, s.getRange existing = .ok range ∧
      range.trackingId = some p.request.trackingId ∧
      p.register m faulty s id now new = (.accepting range, s)) ∨
    ∃ failure, p.register m faulty s id now new = (afterFailure failure, s) := by
  unfold register
  split
  · next range t h => exact .inl ⟨range, t, h, rfl⟩
  · next series first last existing _ =>
    split
    · exact .inr (.inr ⟨_, rfl⟩)
    · next range hrange =>
      split
      · next hmine => exact .inr (.inl ⟨existing, range, hrange, hmine, rfl⟩)
      · exact .inr (.inr ⟨.rangeOverlap series first last existing, rfl⟩)
  · exact .inr (.inr ⟨_, rfl⟩)

theorem accept_cases (now : Instant) (range : Range) :
    (∃ outcome, (p.accept s now range).1 = .ended outcome) ∨
      ∃ failure, (p.accept s now range).1 = afterFailure failure := by
  unfold accept
  split
  · exact .inr ⟨_, rfl⟩
  · split <;> exact .inl ⟨_, rfl⟩

theorem reject_ended (now : Instant) (failure : Failure) :
    ∃ outcome, (p.reject s now failure).1 = .ended outcome := by
  unfold reject
  split <;> exact ⟨_, rfl⟩

end Poll

namespace Polling

variable (m : Monitor) (v : Verifier)

/-- A turn.  One that the stage does not call for changes nothing. -/
def go (q : Polling) (s : Store) (step : PollStep) : Polling × Store :=
  match q.stage, step with
  | .waiting, .tick now later =>
    let ((stage, poll), s, alerts) := q.poll.tick m s now later
    (⟨poll, stage, q.alerts ++ alerts⟩, s)
  | .waiting, .cancel =>
    let (stage, s) := q.poll.cancel s
    ({ q with stage := stage }, s)
  | .asking since, .answered answer =>
    let (stage, s, alerts) := q.poll.answered s since answer
    ({ q with stage := stage, alerts := q.alerts ++ alerts }, s)
  | .fetching _, .delivered now answer => ({ q with stage := q.poll.delivered v now answer }, s)
  | .registering new, .register faulty id now =>
    let (stage, s) := q.poll.register m faulty s id now new
    ({ q with stage := stage }, s)
  | .accepting range, .accept now =>
    let (stage, s) := q.poll.accept s now range
    ({ q with stage := stage }, s)
  | .rejecting failure, .reject now =>
    let (stage, s, alerts) := q.poll.reject s now failure
    ({ q with stage := stage, alerts := q.alerts ++ alerts }, s)
  | _, _ => (q, s)

/-- What a happening makes of a poll and the store. -/
def meet (here : Polling × Store) : Happening → Polling × Store
  | .own step => here.1.go m v here.2 step
  | .other e => (here.1, here.2.after e)

/-- What some happenings make of a poll and the store. -/
def follow (here : Polling × Store) (hs : List Happening) : Polling × Store :=
  hs.foldl (meet m v) here

variable {m v}

@[simp] theorem follow_nil (here : Polling × Store) : follow m v here [] = here := rfl

@[simp] theorem follow_cons (here : Polling × Store) (h : Happening) (hs : List Happening) :
    follow m v here (h :: hs) = follow m v (meet m v here h) hs := rfl

theorem follow_append (here : Polling × Store) (hs hs' : List Happening) :
    follow m v here (hs ++ hs') = follow m v (follow m v here hs) hs' :=
  List.foldl_append

/-! ## One turn -/

variable {q : Polling} {s : Store}

theorem go_of_ended (h : q.stage.HasEnded) (step : PollStep) : q.go m v s step = (q, s) := by
  obtain ⟨poll, stage, alerts⟩ := q
  cases stage with
  | ended => cases step <;> rfl
  | _ => exact h.elim

/-- The request and the deadline of a poll stay what they are; only its lease is renewed. -/
theorem go_poll (q : Polling) (s : Store) (step : PollStep) :
    (q.go m v s step).1.poll = { q.poll with lease := (q.go m v s step).1.poll.lease } := by
  obtain ⟨poll, stage, alerts⟩ := q
  cases stage <;> cases step <;> try rfl
  simp only [go, Poll.tick]
  split
  · rfl
  · split
    · split <;> rfl
    · rfl

theorem go_request (q : Polling) (s : Store) (step : PollStep) :
    (q.go m v s step).1.poll.request = q.poll.request := by
  rw [go_poll]

theorem go_deadline (q : Polling) (s : Store) (step : PollStep) :
    (q.go m v s step).1.poll.deadline = q.poll.deadline := by
  rw [go_poll]

theorem follow_poll (q : Polling) (s : Store) (hs : List Happening) :
    (follow m v (q, s) hs).1.poll.request = q.poll.request ∧
      (follow m v (q, s) hs).1.poll.deadline = q.poll.deadline := by
  induction hs generalizing q s with
  | nil => exact ⟨rfl, rfl⟩
  | cons happening hs ih =>
    cases happening with
    | own step =>
      obtain ⟨hrequest, hdeadline⟩ := ih (q.go m v s step).1 (q.go m v s step).2
      exact ⟨hrequest.trans (go_request q s step), hdeadline.trans (go_deadline q s step)⟩
    | other event => exact ih q (s.after event)

theorem go_reject_ended {failure : Failure} (h : q.stage = .rejecting failure) (s : Store)
    (now : Instant) :
    (q.go m v s (.reject now)).1.stage.HasEnded := by
  obtain ⟨poll, stage, alerts⟩ := q
  obtain rfl : stage = .rejecting failure := h
  obtain ⟨outcome, hended⟩ := poll.reject_ended s now failure
  show (poll.reject s now failure).1.HasEnded
  rw [hended]
  trivial

/-- A poll that has ended does nothing any more. -/
theorem follow_of_ended (h : q.stage.HasEnded) (s : Store) (hs : List Happening) :
    (follow m v (q, s) hs).1 = q := by
  induction hs generalizing s with
  | nil => rfl
  | cons happening hs ih =>
    cases happening with
    | own step =>
      rw [follow_cons, meet, go_of_ended h]
      exact ih s
    | other e => exact ih (s.after e)

/-- Where a poll neither has a range to register nor one to name, and closes its request only after a
failure that no later tick mends. -/
def Passing : PollStage → Prop
  | .registering _ | .accepting _ => False
  | .rejecting failure => Poll.mayRetry failure = false
  | _ => True

theorem passing_afterFailure (failure : Failure) : Passing (Poll.afterFailure failure) := by
  rcases Poll.afterFailure_cases failure with h | ⟨h, hnever⟩ <;> rw [h]
  · trivial
  · exact hnever

/-- A turn leaves the stage, or comes to a range to register by a delivery, or to a range to name by
registering it or finding it registered, or passes on. -/
theorem go_stage (q : Polling) (s : Store) (step : PollStep) :
    (q.go m v s step).1.stage = q.stage ∨
    (∃ now bytes a new, step = .delivered now (.ok bytes) ∧
      v.verify bytes q.poll.request.series now = .ok a ∧ q.poll.rangeOf a = .ok new ∧
      (q.go m v s step).1.stage = .registering new) ∨
    (∃ new range, q.stage = .registering new ∧ (q.go m v s step).1.stage = .accepting range ∧
      ((∃ faulty id now,
          s.register m.maxRangeSize faulty id now new = .ok (range, (q.go m v s step).2)) ∨
        ((q.go m v s step).2 = s ∧ ∃ existing, s.getRange existing = .ok range ∧
          range.trackingId = some q.poll.request.trackingId))) ∨
    Passing (q.go m v s step).1.stage := by
  obtain ⟨poll, stage, alerts⟩ := q
  cases stage <;> cases step <;> try exact .inl rfl
  case waiting.tick now later =>
    refine .inr (.inr (.inr ?_))
    show Passing (poll.tick m s now later).1.1
    rcases poll.tick_cases s m now later with h | ⟨_, h⟩ <;> rw [h] <;> trivial
  case waiting.cancel => exact .inr (.inr (.inr trivial))
  case asking.answered since answer =>
    refine .inr (.inr (.inr ?_))
    show Passing (poll.answered s since answer).1
    rcases poll.answered_cases s since answer with h | ⟨_, h⟩ | ⟨_, h⟩ <;> rw [h] <;> trivial
  case fetching.delivered location now answer =>
    rcases poll.delivered_cases v now answer with ⟨bytes, a, new, rfl, ha, hnew, h⟩ | ⟨failure, h⟩
    · exact .inr (.inl ⟨now, bytes, a, new, rfl, ha, hnew, h⟩)
    · refine .inr (.inr (.inr ?_))
      show Passing (poll.delivered v now answer)
      rw [h]
      exact passing_afterFailure failure
  case registering.register new faulty id now =>
    simp only [go]
    rcases poll.register_cases s m faulty id now new with
      ⟨range, t, hrange, h⟩ | ⟨existing, range, hrange, hmine, h⟩ | ⟨failure, h⟩ <;> rw [h]
    · exact .inr (.inr (.inl ⟨new, range, rfl, rfl, .inl ⟨faulty, id, now, hrange⟩⟩))
    · exact .inr (.inr (.inl ⟨new, range, rfl, rfl, .inr ⟨rfl, existing, hrange, hmine⟩⟩))
    · exact .inr (.inr (.inr (passing_afterFailure failure)))
  case accepting.accept range now =>
    refine .inr (.inr (.inr ?_))
    show Passing (poll.accept s now range).1
    rcases poll.accept_cases s now range with ⟨_, h⟩ | ⟨failure, h⟩ <;> rw [h]
    · trivial
    · exact passing_afterFailure failure
  case rejecting.reject failure now =>
    refine .inr (.inr (.inr ?_))
    show Passing (poll.reject s now failure).1
    obtain ⟨_, h⟩ := poll.reject_ended s now failure
    rw [h]
    trivial

/-- The event that a turn is for the store, if it takes the store up at all. -/
def event? (m : Monitor) (q : Polling) (step : PollStep) : Option Event :=
  match q.stage, step with
  | .waiting, .tick now later => some ⟨now, .tick m q.poll later⟩
  | .waiting, .cancel => some ⟨default, .cancel q.poll⟩
  | .asking since, .answered answer => some ⟨since, .answered q.poll since answer⟩
  | .registering new, .register faulty id now => some ⟨now, .ingest m faulty id q.poll new⟩
  | .accepting range, .accept now => some ⟨now, .accept q.poll range⟩
  | .rejecting failure, .reject now => some ⟨now, .reject q.poll failure⟩
  | _, _ => none

theorem go_store (q : Polling) (s : Store) (step : PollStep) :
    (q.go m v s step).2 = s.run (q.event? m step).toList := by
  obtain ⟨poll, stage, alerts⟩ := q
  cases stage <;> cases step <;> rfl

/-! ## Others in between -/

variable {hs : List Happening} {P : Store → Prop}

/-- Others let a poll be. -/
theorem follow_others (hown : hs.filterMap Happening.own? = [])
    (hkeep : ∀ e, .other e ∈ hs → ∀ s, P s → P (s.after e)) (h : P s) :
    ∃ t, follow m v (q, s) hs = (q, t) ∧ P t := by
  induction hs generalizing s with
  | nil => exact ⟨s, rfl, h⟩
  | cons happening hs ih =>
    cases happening with
    | own step => cases hown
    | other e =>
      exact ih hown (fun e' he' => hkeep e' (List.mem_cons_of_mem _ he'))
        (hkeep e List.mem_cons_self s h)

/-- Some others act before the next turn of a poll. -/
theorem exists_next {step : PollStep} {steps : List PollStep}
    (hown : hs.filterMap Happening.own? = step :: steps) :
    ∃ before hs', hs = before ++ .own step :: hs' ∧ before.filterMap Happening.own? = [] ∧
      hs'.filterMap Happening.own? = steps := by
  obtain ⟨before, happening, hs', rfl, hnone, hsome, hrest⟩ := List.filterMap_eq_cons_iff.1 hown
  cases happening with
  | other e => cases hsome
  | own step' =>
    cases hsome
    exact ⟨before, hs', rfl, List.filterMap_eq_nil_iff.2 hnone, hrest⟩

/-- When the next turn of a poll comes, what others keep still holds. -/
theorem follow_next {step : PollStep} {steps : List PollStep}
    (hown : hs.filterMap Happening.own? = step :: steps)
    (hkeep : ∀ e, .other e ∈ hs → ∀ s, P s → P (s.after e)) (h : P s) :
    ∃ t hs', P t ∧ hs'.filterMap Happening.own? = steps ∧ (∀ e, .other e ∈ hs' → .other e ∈ hs) ∧
      follow m v (q, s) hs = follow m v (q.go m v t step) hs' := by
  obtain ⟨before, hs', rfl, hnone, hrest⟩ := exists_next hown
  obtain ⟨t, hbefore, ht⟩ := follow_others (m := m) (v := v) (q := q) hnone
    (fun e he => hkeep e (List.mem_append_left _ he)) h
  refine ⟨t, hs', ht, hrest, fun e he => by simp [he], ?_⟩
  rw [follow_append, hbefore, follow_cons]
  rfl

end Polling

/-! ## Ticks and polls in one go -/

namespace Workshop

open Polling

variable {m : Type → Type} [Monad m] [LawfulMonad m] (world : World m) (w : Workshop)

/-- A bound on the turns that lead from a stage to rest. -/
def turnsLeft : PollStage → Nat
  | .asking _ => 5
  | .fetching _ => 4
  | .registering _ => 3
  | .accepting _ => 2
  | .rejecting _ => 1
  | .waiting | .ended _ => 0

theorem atRest_of_turnsLeft {stage : PollStage} (h : turnsLeft stage = 0) : stage.AtRest := by
  cases stage <;> simp_all [turnsLeft, PollStage.AtRest]

theorem turnsLeft_afterFailure (failure : Failure) : turnsLeft (Poll.afterFailure failure) ≤ 1 := by
  rcases Poll.afterFailure_cases failure with h | ⟨h, -⟩ <;> simp [h, turnsLeft]

theorem turnsLeft_answered (p : Poll) (s : Store) (since : Instant)
    (answer : Except Failure AuthorityStatus) :
    turnsLeft (p.answered s since answer).1 ≤ 4 := by
  rcases p.answered_cases s since answer with h | ⟨_, h⟩ | ⟨_, h⟩ <;> simp [h, turnsLeft]

theorem turnsLeft_delivered (p : Poll) (v : Verifier) (now : Instant)
    (answer : Except Failure ByteArray) : turnsLeft (p.delivered v now answer) ≤ 3 := by
  rcases p.delivered_cases v now answer with ⟨_, _, _, -, -, -, h⟩ | ⟨failure, h⟩ <;> rw [h]
  · simp [turnsLeft]
  · exact Nat.le_trans (turnsLeft_afterFailure failure) (by decide)

theorem turnsLeft_register (p : Poll) (monitor : Monitor) (faulty : Option Nat) (s : Store)
    (id : String) (now : Instant) (new : NewRange) :
    turnsLeft (p.register monitor faulty s id now new).1 ≤ 2 := by
  rcases p.register_cases s monitor faulty id now new with
    ⟨_, _, -, h⟩ | ⟨_, _, -, -, h⟩ | ⟨failure, h⟩ <;> rw [h]
  · simp [turnsLeft]
  · simp [turnsLeft]
  · exact Nat.le_trans (turnsLeft_afterFailure failure) (by decide)

theorem turnsLeft_accept (p : Poll) (s : Store) (now : Instant) (range : Range) :
    turnsLeft (p.accept s now range).1 ≤ 1 := by
  rcases p.accept_cases s now range with ⟨_, h⟩ | ⟨failure, h⟩ <;> rw [h]
  · simp [turnsLeft]
  · exact turnsLeft_afterFailure failure

theorem turnsLeft_reject (p : Poll) (s : Store) (now : Instant) (failure : Failure) :
    turnsLeft (p.reject s now failure).1 = 0 := by
  obtain ⟨_, h⟩ := p.reject_ended s now failure
  rw [h, turnsLeft]

/-- From `q` and `s` some turns without a tick lead to a poll at a stage, with these alerts, and to a
store. -/
def Follows (q : Polling) (s : Store) (p : Poll) (stage : PollStage) (t : Store)
    (alerts : List Alert) : Prop :=
  ∃ steps : List PollStep, (∀ step ∈ steps, step.isTick = false) ∧
    follow w.monitor w.verifier (q, s) (steps.map .own) = (⟨p, stage, q.alerts ++ alerts⟩, t)

variable {w}

theorem Follows.refl (q : Polling) (s : Store) : w.Follows q s q.poll q.stage s [] :=
  ⟨[], by simp, by simp⟩

theorem Follows.trans {q : Polling} {s t u : Store} {p p' : Poll} {stage stage' : PollStage}
    {alerts alerts' : List Alert} (h : w.Follows q s p stage t alerts)
    (h' : w.Follows ⟨p, stage, q.alerts ++ alerts⟩ t p' stage' u alerts') :
    w.Follows q s p' stage' u (alerts ++ alerts') := by
  obtain ⟨steps, hturns, hsteps⟩ := h
  obtain ⟨steps', hturns', hsteps'⟩ := h'
  refine ⟨steps ++ steps', List.forall_mem_append.2 ⟨hturns, hturns'⟩, ?_⟩
  rw [List.map_append, follow_append, hsteps, hsteps', List.append_assoc]

theorem Follows.of_step {q : Polling} {s t : Store} {p : Poll} {stage : PollStage}
    {alerts : List Alert} (step : PollStep) (hstep : step.isTick = false)
    (h : q.go w.monitor w.verifier s step = (⟨p, stage, q.alerts ++ alerts⟩, t)) :
    w.Follows q s p stage t alerts :=
  ⟨[step], by simpa using hstep, h⟩

theorem Follows.of_quiet_step {q : Polling} {s t : Store} {p : Poll} {stage : PollStage}
    (step : PollStep) (hstep : step.isTick = false)
    (h : q.go w.monitor w.verifier s step = (⟨p, stage, q.alerts⟩, t)) :
    w.Follows q s p stage t [] :=
  .of_step step hstep (by rw [h, List.append_nil])

variable (w)

theorem advance_follows (q : Polling) (s : Store) :
    Always (fun out => w.Follows q s q.poll out.1 out.2.1 out.2.2 ∧
        turnsLeft out.1 ≤ turnsLeft q.stage - 1)
      (w.advance world q.poll s q.stage) := by
  obtain ⟨p, stage, alerts⟩ := q
  cases stage with
  | waiting => exact .pure ⟨.refl ⟨p, .waiting, alerts⟩ s, Nat.zero_le _⟩
  | ended outcome => exact .pure ⟨.refl ⟨p, .ended outcome, alerts⟩ s, Nat.zero_le _⟩
  | asking since =>
    exact .any_bind fun answer => .pure
      ⟨.of_step (.answered answer) rfl rfl, turnsLeft_answered p s since answer⟩
  | fetching location =>
    exact .any_bind fun answer => .any_bind fun now => .pure
      ⟨.of_quiet_step (.delivered now answer) rfl rfl, turnsLeft_delivered p w.verifier now answer⟩
  | registering new =>
    exact .any_bind fun id => .any_bind fun now => .pure
      ⟨.of_quiet_step (.register w.faulty id now) rfl rfl,
        turnsLeft_register p w.monitor w.faulty s id now new⟩
  | accepting range =>
    exact .any_bind fun now => .pure
      ⟨.of_quiet_step (.accept now) rfl rfl, turnsLeft_accept p s now range⟩
  | rejecting failure =>
    exact .any_bind fun now => .pure
      ⟨.of_step (.reject now) rfl rfl, Nat.le_of_eq (turnsLeft_reject p s now failure)⟩

/-- Enough steps in a row are turns of the poll, and bring it to rest. -/
theorem advanceAll_follows (fuel : Nat) (q : Polling) (s : Store) (h : turnsLeft q.stage ≤ fuel) :
    Always (fun out => w.Follows q s q.poll out.1 out.2.1 out.2.2 ∧ out.1.AtRest)
      (w.advanceAll world fuel q.poll s q.stage) := by
  induction fuel generalizing q s with
  | zero => exact .pure ⟨.refl q s, atRest_of_turnsLeft (Nat.le_zero.1 h)⟩
  | succ fuel ih =>
    obtain ⟨p, stage, alerts⟩ := q
    -- What all stages do that are not at rest.
    have hgo : Always (fun out => w.Follows ⟨p, stage, alerts⟩ s p out.1 out.2.1 out.2.2 ∧
        out.1.AtRest) (do
          let (stage', t, more) ← w.advance world p s stage
          let (stage', t, more') ← w.advanceAll world fuel p t stage'
          return (stage', t, more ++ more')) := by
      refine (w.advance_follows world ⟨p, stage, alerts⟩ s).bind fun out hout => ?_
      have hleft : turnsLeft out.1 ≤ fuel := by
        have := hout.2
        simp only at this h
        omega
      refine (ih ⟨p, out.1, alerts ++ out.2.2⟩ out.2.1 hleft).bind fun out' hout' => ?_
      exact .pure ⟨hout.1.trans hout'.1, hout'.2⟩
    cases stage with
    | waiting => exact .pure ⟨.refl ⟨p, .waiting, alerts⟩ s, trivial⟩
    | ended outcome => exact .pure ⟨.refl ⟨p, .ended outcome, alerts⟩ s, trivial⟩
    | _ => exact hgo

/-- A tick of the worker is a tick of the poll and a row of other turns, after which the poll waits or has
ended. -/
theorem tick_follows (p : Poll) (s : Store) :
    Always (fun out => ∃ (now later : Instant) (stage : PollStage) (steps : List PollStep),
        (∀ step ∈ steps, step.isTick = false) ∧
        follow w.monitor w.verifier (p.begun, s) (.own (.tick now later) :: steps.map .own) =
          (⟨out.1, stage, out.2.2.2⟩, out.2.2.1) ∧
        stage.AtRest ∧ out.2.1 = stage.outcome?)
      (w.tick world p s) := by
  unfold tick
  refine .any_bind fun now => .any_bind fun later => ?_
  have hleft : turnsLeft (p.tick w.monitor s now later).1.1 ≤ 5 := by
    cases (p.tick w.monitor s now later).1.1 <;> simp [turnsLeft]
  refine (w.advanceAll_follows world 5
    ⟨(p.tick w.monitor s now later).1.2, (p.tick w.monitor s now later).1.1,
      (p.tick w.monitor s now later).2.2⟩
    (p.tick w.monitor s now later).2.1 hleft).bind fun out hout => .pure ?_
  obtain ⟨⟨steps, hturns, hsteps⟩, hrest⟩ := hout
  refine ⟨now, later, out.1, steps, hturns, hsteps, hrest, ?_⟩
  show (match out.1 with | .ended outcome => some outcome | _ => none) = out.1.outcome?
  cases out.1 <;> rfl

end Workshop

end FolioLedger
