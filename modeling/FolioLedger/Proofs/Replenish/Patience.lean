import FolioLedger.Proofs.Locks.Refusal
import FolioLedger.Proofs.Locks.Separation
import FolioLedger.Proofs.Replenish.Ingestion
import FolioLedger.Proofs.Time.Pace

/-!
# Polls that are left alone

A poll takes its turns in rounds: it is woken, ticks, and comes to rest again (`Round.Whole`), which is
what a tick of the worker amounts to (`Workshop.tick_whole`).  If the clock goes on meanwhile by no more
than the time between ticks, and nobody else touches the lock of the poll (`Round.Lone`), the lease is
renewed before it lapses, since settings are refused under which it might not (`Round.Lone.renews`).  So
after each round the poll has ended, or waits with its lock held as it was renewed (`Poll.Waits`).

A round that begins with the deadline behind it ends the poll, however the earlier ones went; and as
clocks go on (`Instant.exists_reached`) there is such a round.
-/

namespace FolioLedger

open Store

variable {m : Monitor} {v : Verifier} {s t : Store} {now later : Instant} {key token : String} {ttl : Nat}

/-! ## Leases that are renewed in time -/

/-- A lock lasts for the time that it was taken for, also where its deadline is clipped. -/
theorem Lock.toMillis_le_deadline {since now : Instant}
    (hle : (now.toMillis : Int) ≤ since.toMillis + ttl) (hdated : Dated now ttl) :
    now.toMillis ≤ deadline since.toMillis ttl := by
  have hclipped : ∀ start stop : Int, Instant.minSecond * 1000 ≤ start → stop ≤ start + ttl →
      ttl + stop ≤ Instant.lastMillis →
      stop ≤ min (start + min (ttl : Int) 9223372036854775807) 9223372036854775807 := by
    unfold Instant.minSecond Instant.lastMillis Instant.maxSecond
    omega
  have hmin := since.minSecond_le_toMillis
  rw [deadline_eq_min hmin]
  exact hclipped since.toMillis now.toMillis hmin hle hdated

namespace Store

variable {lease : Lease} {deadline : Millis}

theorem Holds.of_sameLock (h : s.Holds key token deadline) (hsame : SameLock key s t) :
    t.Holds key token deadline := by
  obtain ⟨row, hrow, hholder⟩ := h
  exact ⟨row, Eq.trans hsame hrow, hholder⟩

theorem acquire_holds (h : s.acquire now ttl token key = (.ok lease, t)) :
    lease.key = key ∧ lease.token = token ∧
      t.Holds key token (Lock.deadline now.toMillis ttl) := by
  obtain ⟨-, fencing, _, -, rfl, rfl⟩ := acquire_eq_ok h
  refine ⟨rfl, rfl, ⟨key, token, fencing, Lock.deadline now.toMillis ttl⟩, ?_, rfl, rfl⟩
  rw [lock?_putLock, if_pos rfl]

theorem Holds.renew {since : Instant}
    (h : s.Holds lease.key lease.token (Lock.deadline since.toMillis ttl))
    (hle : (now.toMillis : Int) ≤ since.toMillis + ttl) (hdated : Lock.Dated now ttl) :
    ∃ d t, s.renew now ttl lease = (.ok { lease with deadline := d }, t) ∧
      t.Holds lease.key lease.token (Lock.deadline now.toMillis ttl) := by
  obtain ⟨row, hrow, htoken, hdeadline⟩ := h
  obtain ⟨hmem, hkey⟩ := lock?_eq_some hrow
  have hheld : row.HeldBy now lease :=
    ⟨hkey, htoken, hdeadline ▸ Lock.toMillis_le_deadline hle hdated⟩
  obtain ⟨d, hd⟩ := Lock.dated_iff.1 hdated
  have hrenew := renew_of_held ⟨row, hmem, hheld⟩ ttl
  rw [hd] at hrenew
  refine ⟨d, _, hrenew, { row with deadline := Lock.deadline now.toMillis ttl }, ?_, htoken, rfl⟩
  have hafter := lock?_renew s now ttl lease lease.key
  rw [hrow, Option.map_some, if_pos ⟨hheld.1, hheld.2.1, hheld.2.2⟩, hrenew] at hafter
  exact hafter

end Store

/-! ## Rounds -/

/-- What happens from the end of one round of a poll to the end of the next. -/
structure Round where
  /-- What happens until the poll is woken. -/
  before : List Happening
  /-- What the clock reads when the poll ticks. -/
  now : Instant
  /-- What it reads then for the deadline. -/
  later : Instant
  /-- What follows from the tick, and what happens meanwhile. -/
  after : List Happening

namespace Polling

variable (m v)

/-- Where a poll stands when it is woken. -/
def woken (here : Polling × Store) (r : Round) : Polling × Store := follow m v here r.before

/-- Where a poll stands after a round. -/
def afterRound (here : Polling × Store) (r : Round) : Polling × Store :=
  follow m v here (r.before ++ .own (.tick r.now r.later) :: r.after)

/-- Where a poll stands after so many rounds. -/
def reached (here : Polling × Store) (rounds : Nat → Round) : Nat → Polling × Store
  | 0 => here
  | n + 1 => afterRound m v (reached here rounds n) (rounds n)

/-- Nobody else touches a lock. -/
def LeftAlone (key : String) (here : Polling × Store) : List Happening → Prop
  | [] => True
  | .own step :: hs => LeftAlone key (here.1.go m v here.2 step) hs
  | .other e :: hs => SameLock key here.2 (here.2.after e) ∧
    LeftAlone key (here.1, here.2.after e) hs

end Polling

open Polling

/-- What the clock reads when the lock is taken, and then at each tick. -/
def readings (granted : Instant) (rounds : Nat → Round) : Nat → Instant
  | 0 => granted
  | n + 1 => (rounds n).now

namespace Round

/-- The poll ticks once in the round, and comes to rest. -/
structure Whole (r : Round) (m : Monitor) (v : Verifier) (here : Polling × Store) : Prop where
  once : ∀ step, .own step ∈ r.before ++ r.after → step.isTick = false
  rests : (afterRound m v here r).1.stage.AtRest

/-- A round in which the clock goes on, after the reading `last`, by the time between ticks at most, and
the lock of the poll is left alone. -/
structure Lone (r : Round) (m : Monitor) (v : Verifier) (interval : Nat) (last : Instant)
    (here : Polling × Store) : Prop extends r.Whole m v here where
  paced : Instant.Paced interval last r.now
  steady : r.now ≤ r.later
  dated : Lock.Dated r.now m.lockTtl
  alone : LeftAlone m v here.1.poll.lease.key here (r.before ++ .own (.tick r.now r.later) :: r.after)

end Round

/-! ## Between two ticks -/

namespace Polling

variable {q : Polling} {hs hs' : List Happening} {here : Polling × Store}

theorem leftAlone_append : LeftAlone m v key here (hs ++ hs') ↔
    LeftAlone m v key here hs ∧ LeftAlone m v key (follow m v here hs) hs' := by
  induction hs generalizing here with
  | nil => exact ⟨fun h => ⟨trivial, h⟩, And.right⟩
  | cons happening hs ih =>
    cases happening with
    | own step => exact ih
    | other event => exact (and_congr_right fun _ => ih).trans and_assoc.symm

theorem leftAlone_own (key : String) (here : Polling × Store) (steps : List PollStep) :
    LeftAlone m v key here (steps.map .own) := by
  induction steps generalizing here with
  | nil => trivial
  | cons step steps ih => exact ih _

/-- A turn that is no tick ends the poll, or touches neither its lock nor its lease. -/
theorem go_between (q : Polling) (s : Store) {step : PollStep} (h : step.isTick = false) :
    (q.go m v s step).1.stage.HasEnded ∨
      ((q.go m v s step).1.poll = q.poll ∧ (q.go m v s step).2.locks = s.locks ∧
        (q.stage = .waiting → (q.go m v s step).1.stage = .waiting)) := by
  obtain ⟨poll, stage, alerts⟩ := q
  cases stage <;> cases step <;> try exact .inr ⟨rfl, rfl, id⟩
  case waiting.tick now later => cases h
  case waiting.cancel => exact .inl trivial
  case asking.answered since answer =>
    show (poll.answered s since answer).1.HasEnded ∨ _ ∧ (poll.answered s since answer).2.1.locks = _ ∧ _
    unfold Poll.answered
    split
    · split
      · exact .inr ⟨rfl, rfl, nofun⟩
      · exact .inl trivial
    · exact .inr ⟨rfl, rfl, nofun⟩
    · split <;> exact .inl trivial
    · exact .inr ⟨rfl, rfl, nofun⟩
  case fetching.delivered location now answer => exact .inr ⟨rfl, rfl, nofun⟩
  case registering.register new faulty id now =>
    have hturn : Turn now [] [] s (poll.register m faulty s id now new).2 :=
      poll.register_turn s m faulty id now new
    exact .inr ⟨rfl, hturn.locks_eq_of_nil, nofun⟩
  case accepting.accept range now =>
    show (poll.accept s now range).1.HasEnded ∨ _ ∧ (poll.accept s now range).2.locks = _ ∧ _
    unfold Poll.accept
    split
    · exact .inr ⟨rfl, rfl, nofun⟩
    · split <;> exact .inl trivial
  case rejecting.reject failure now => exact .inl (go_reject_ended rfl s now)

theorem follow_between (honce : ∀ step, .own step ∈ hs → step.isTick = false)
    (halone : LeftAlone m v key (q, s) hs) : (follow m v (q, s) hs).1.stage.HasEnded ∨
      ((follow m v (q, s) hs).1.poll = q.poll ∧ SameLock key s (follow m v (q, s) hs).2 ∧
        (q.stage = .waiting → (follow m v (q, s) hs).1.stage = .waiting)) := by
  induction hs generalizing q s with
  | nil => exact .inr ⟨rfl, .refl key s, id⟩
  | cons happening hs ih =>
    have honce' : ∀ step, .own step ∈ hs → step.isTick = false :=
      fun step hstep => honce step (List.mem_cons_of_mem _ hstep)
    cases happening with
    | own step =>
      rcases go_between (m := m) (v := v) q s (honce step List.mem_cons_self) with
        hended | ⟨hpoll, hlocks, hwaiting⟩
      · left
        rw [follow_cons, meet, follow_of_ended hended]
        exact hended
      · rcases ih honce' halone with hended | ⟨hpoll', hlock, hwaiting'⟩
        · exact .inl hended
        · exact .inr ⟨hpoll'.trans hpoll, (SameLock.of_locks hlocks).trans hlock,
            fun h => hwaiting' (hwaiting h)⟩
    | other e =>
      rcases ih honce' halone.2 with hended | ⟨hpoll, hlock, hwaiting⟩
      · exact .inl hended
      · exact .inr ⟨hpoll, halone.1.trans hlock, hwaiting⟩

end Polling

/-! ## One round -/

/-- The poll waits for its next tick, and its lock is held as it was taken or renewed at an instant. -/
structure Poll.Waits (p : Poll) (ttl : Nat) (since : Instant) (here : Polling × Store) : Prop where
  stage : here.1.stage = .waiting
  deadline : here.1.poll.deadline = p.deadline
  key : here.1.poll.lease.key = p.lease.key
  token : here.1.poll.lease.token = p.lease.token
  holds : here.2.Holds p.lease.key p.lease.token (Lock.deadline since.toMillis ttl)

theorem Poll.tick_of_late {p : Poll} {lease : Lease}
    (hrenew : s.renew now m.lockTtl p.lease = (.ok lease, t)) (hlate : p.deadline ≤ later) :
    (p.tick m s now later).1.1.HasEnded := by
  simp only [tick, hrenew, hlate, if_true]
  split <;> trivial

namespace Polling

variable {q : Polling} {lease : Lease}

theorem go_tick_of_late (hstage : q.stage = .waiting)
    (hrenew : s.renew now m.lockTtl q.poll.lease = (.ok lease, t)) (hlate : q.poll.deadline ≤ later) :
    (q.go m v s (.tick now later)).1.stage.HasEnded := by
  obtain ⟨poll, stage, alerts⟩ := q
  obtain rfl : stage = .waiting := hstage
  exact Poll.tick_of_late hrenew hlate

theorem go_tick_of_early (hstage : q.stage = .waiting)
    (hrenew : s.renew now m.lockTtl q.poll.lease = (.ok lease, t)) (hearly : ¬ q.poll.deadline ≤ later) :
    q.go m v s (.tick now later) =
      (⟨{ q.poll with lease := lease }, .asking later, q.alerts⟩, t) := by
  obtain ⟨poll, stage, alerts⟩ := q
  obtain rfl : stage = .waiting := hstage
  simp only [go, Poll.tick_of_renew hrenew hearly, List.append_nil]

theorem afterRound_eq (here : Polling × Store) (r : Round) : afterRound m v here r =
    follow m v ((woken m v here r).1.go m v (woken m v here r).2 (.tick r.now r.later)) r.after := by
  unfold afterRound
  rw [follow_append, follow_cons]
  rfl

end Polling

namespace Round.Lone

variable {p : Poll} {r : Round} {interval : Nat} {last : Instant} {here : Polling × Store}

/-- Until it is woken the poll waits, unless it is called off. -/
theorem woken_waits (h : r.Lone m v interval last here) (hwaits : p.Waits ttl last here) :
    (woken m v here r).1.stage.HasEnded ∨ p.Waits ttl last (woken m v here r) := by
  have halone := (leftAlone_append.1 h.alone).1
  rcases follow_between (fun step hstep => h.once step (List.mem_append_left _ hstep)) halone with
    hended | ⟨hpoll, hlock, hwaiting⟩
  · exact .inl hended
  · rw [hwaits.key] at hlock
    have hpoll' : (woken m v here r).1.poll = here.1.poll := hpoll
    exact .inr ⟨hwaiting hwaits.stage, hpoll' ▸ hwaits.deadline, hpoll' ▸ hwaits.key,
      hpoll' ▸ hwaits.token, hwaits.holds.of_sameLock hlock⟩

/-- A poll that waits renews its lease when it ticks. -/
theorem renews (h : r.Lone m v interval last here) (hinterval : (interval + 1) * 1000 ≤ m.lockTtl)
    (hwaits : p.Waits m.lockTtl last (woken m v here r)) :
    ∃ d t, (woken m v here r).2.renew r.now m.lockTtl (woken m v here r).1.poll.lease =
        (.ok { (woken m v here r).1.poll.lease with deadline := d }, t) ∧
      t.Holds p.lease.key p.lease.token (Lock.deadline r.now.toMillis m.lockTtl) := by
  have hle : (r.now.toMillis : Int) ≤ last.toMillis + m.lockTtl :=
    Int.le_trans h.paced.toMillis_le (Int.add_le_add_left (by omega) _)
  have hholds := hwaits.holds
  rw [← hwaits.key, ← hwaits.token] at hholds ⊢
  exact hholds.renew hle h.dated

/-- After the round the poll has ended, or it is not yet time to end, and it waits for the next one. -/
theorem afterRound_waits (h : r.Lone m v interval last here)
    (hinterval : (interval + 1) * 1000 ≤ m.lockTtl) (hwaits : p.Waits m.lockTtl last here) :
    (afterRound m v here r).1.stage.HasEnded ∨
      (¬ p.deadline ≤ r.later ∧ p.Waits m.lockTtl r.now (afterRound m v here r)) := by
  have hrests := h.rests
  rw [afterRound_eq] at hrests ⊢
  rcases h.woken_waits hwaits with hended | hmet
  · left
    rw [go_of_ended hended, follow_of_ended hended]
    exact hended
  obtain ⟨d, t, hrenew, hholds⟩ := h.renews hinterval hmet
  by_cases hlate : p.deadline ≤ r.later
  · left
    have hended := go_tick_of_late (v := v) hmet.stage hrenew (hmet.deadline ▸ hlate)
    have hstays := follow_of_ended (m := m) (v := v) hended
      ((woken m v here r).1.go m v (woken m v here r).2 (.tick r.now r.later)).2 r.after
    exact hstays ▸ hended
  · -- The poll asks, and goes on as the rest of the round has it.
    have halone : LeftAlone m v here.1.poll.lease.key
        ((woken m v here r).1.go m v (woken m v here r).2 (.tick r.now r.later)) r.after :=
      (leftAlone_append.1 h.alone).2
    rw [hwaits.key] at halone
    rw [go_tick_of_early hmet.stage hrenew (hmet.deadline ▸ hlate)] at hrests halone ⊢
    rcases follow_between (fun step hstep => h.once step (List.mem_append_right _ hstep)) halone with
      hended | ⟨hpoll, hlock, -⟩
    · exact .inl hended
    · cases hstage : (follow m v (_, t) r.after).1.stage with
      | waiting =>
        refine .inr ⟨hlate, hstage, ?_, ?_, ?_, hholds.of_sameLock hlock⟩ <;> rw [hpoll]
        · exact hmet.deadline
        · exact hmet.key
        · exact hmet.token
      | ended => exact .inl trivial
      | _ =>
        rw [hstage] at hrests
        exact hrests.elim

end Round.Lone

/-! ## All rounds -/

namespace Polling

variable {here : Polling × Store} {rounds : Nat → Round} {n : Nat}

/-- A poll that has ended does nothing any more. -/
theorem afterRound_of_ended (h : here.1.stage.HasEnded) (r : Round) : (afterRound m v here r).1 = here.1 :=
  follow_of_ended h here.2 _

theorem reached_of_ended (h : (reached m v here rounds n).1.stage.HasEnded) {k : Nat} (hk : n ≤ k) :
    (reached m v here rounds k).1.stage.HasEnded := by
  induction k, hk using Nat.le_induction with
  | base => exact h
  | succ k _ ih =>
    rw [reached, afterRound_of_ended ih]
    exact ih

end Polling

/-- A tick of the worker is a round. -/
theorem Workshop.tick_whole {M : Type → Type} [Monad M] [LawfulMonad M] (world : World M)
    (w : Workshop) (p : Poll) (s : Store) :
    Always (fun out => ∃ r stage, r.Whole w.monitor w.verifier (p.begun, s) ∧
        (∀ key, LeftAlone w.monitor w.verifier key (p.begun, s)
          (r.before ++ .own (.tick r.now r.later) :: r.after)) ∧
        afterRound w.monitor w.verifier (p.begun, s) r = (⟨out.1, stage, out.2.2.2⟩, out.2.2.1) ∧
        out.2.1 = stage.outcome?)
      (w.tick world p s) := by
  refine (w.tick_follows world p s).imp fun out hout => ?_
  obtain ⟨now, later, stage, steps, hturns, hsteps, hrests, houtcome⟩ := hout
  refine ⟨⟨[], now, later, steps.map .own⟩, stage, ⟨fun step hstep => ?_, ?_⟩, fun key => ?_, hsteps,
    houtcome⟩
  · obtain ⟨_, hmem, heq⟩ := List.mem_map.1 hstep
    cases heq
    exact hturns step hmem
  · unfold afterRound
    rw [List.nil_append, hsteps]
    exact hrests
  · exact leftAlone_own key (p.begun, s) (.tick now later :: steps)

namespace Poll

variable {p : Poll} {interval : Nat} {granted : Instant} {rounds : Nat → Round}

theorem not_hasEnded_of_waits {here : Polling × Store} {since : Instant} (h : p.Waits ttl since here) :
    ¬ here.1.stage.HasEnded := by
  rw [h.stage]
  exact id

section Lone

variable (hinterval : (interval + 1) * 1000 ≤ m.lockTtl)
    (hbegun : p.Waits m.lockTtl granted (p.begun, s))
    (hrounds : ∀ n, ¬ (reached m v (p.begun, s) rounds n).1.stage.HasEnded →
      (rounds n).Lone m v interval (readings granted rounds n) (reached m v (p.begun, s) rounds n))

include hinterval hbegun hrounds

/-- As long as each round leaves it alone, the poll waits or has ended. -/
theorem waits_or_ended (n : Nat) : (reached m v (p.begun, s) rounds n).1.stage.HasEnded ∨
    p.Waits m.lockTtl (readings granted rounds n) (reached m v (p.begun, s) rounds n) := by
  induction n with
  | zero => exact .inr hbegun
  | succ n ih =>
    rcases ih with hended | hwaits
    · exact .inl (reached_of_ended hended (Nat.le_succ n))
    · rcases (hrounds n (not_hasEnded_of_waits hwaits)).afterRound_waits hinterval hwaits with
        hended | ⟨-, hwaits'⟩
      · exact .inl hended
      · exact .inr hwaits'

/-- The first tick that does not come before the deadline is the last one. -/
theorem ended_of_due {n : Nat} (hdue : p.deadline ≤ (rounds n).later) :
    (reached m v (p.begun, s) rounds (n + 1)).1.stage.HasEnded := by
  rcases waits_or_ended hinterval hbegun hrounds n with hended | hwaits
  · exact reached_of_ended hended (Nat.le_succ n)
  · rcases (hrounds n (not_hasEnded_of_waits hwaits)).afterRound_waits hinterval hwaits with
      hended | ⟨hearly, -⟩
    · exact hended
    · exact absurd hdue hearly

theorem exists_ended : ∃ n, (∀ i < n, ¬ p.deadline ≤ (rounds i).later) ∧
    (reached m v (p.begun, s) rounds (n + 1)).1.stage.HasEnded := by
  by_contra hnever
  push Not at hnever
  -- The deadline would never come, since it would end the poll.
  have hearly : ∀ n, ¬ p.deadline ≤ (rounds n).later := by
    intro n
    induction n using Nat.strong_induction_on with
    | _ n ih => exact fun hdue => hnever n ih (ended_of_due hinterval hbegun hrounds hdue)
  have hlone : ∀ n, (rounds n).Lone m v interval (readings granted rounds n)
      (reached m v (p.begun, s) rounds n) := by
    intro n
    refine hrounds n ?_
    cases n with
    | zero => exact id
    | succ n => exact hnever n fun i _ => hearly i
  obtain ⟨k, -, hdue⟩ : ∃ k, _ ∧ p.deadline ≤ (rounds k).now :=
    Instant.exists_reached (readings granted rounds) fun n _ => (hlone n).paced
  exact hearly k (Instant.le_trans hdue (hlone k).steady)

end Lone

/-- The time until the deadline is not that of a poll whose patience is too long to be counted. -/
theorem start?_of_deadline {seconds : Nat} (hseconds : m.pollTimeout = seconds)
    (hdeadline : p.request.requestedAt.add? (seconds * 1000000000) = some p.deadline) :
    start? m p.request p.lease = some p := by
  have hfits := mt (Instant.add?_eq_none_iff p.request.requestedAt seconds).2
    (by rw [hdeadline]; nofun)
  have hmin := p.request.requestedAt.min_le
  have hpatience : patience m = seconds * 1000000000 := by
    unfold patience Instant.minSecond Instant.maxSecond at *
    rw [if_pos (by omega), hseconds]
  unfold start?
  rw [hpatience, hdeadline]
  rfl

end Poll

/-- Settings under which a lease lasts for one tick and a half. -/
def unhurried : EngineConfig where
  requestQuantity := 5
  requestLockTtlSecs := 30
  pollIntervalSecs := 20
  pollTimeoutSecs := 45

def unhurriedPoll : Poll :=
  ⟨trialPoll.request, ⟨"replenish:A:T", "token", 1, earlyAt 31⟩, earlyAt 46⟩

/-- The lock is taken, and the request recorded. -/
def unhurriedStore : Store :=
  (Monitor.record (empty.acquire (earlyAt 1) unhurried.monitor.lockTtl "token" "replenish:A:T").2
    ⟨trialDraft.request, earlyAt 1, unhurriedPoll.lease⟩ (.ok "trk-1")).2

/-- The request is pending, then its artifact cannot be fetched, and then its time is over. -/
def unhurriedRounds : Nat → Round
  | 0 => ⟨[], earlyAt 21, earlyAt 21, [.own (.answered (.ok .pending))]⟩
  | 1 => ⟨[], earlyAt 41, earlyAt 42, [.own (.answered (.ok (.accepted "artifacts/1"))),
      .own (.delivered (earlyAt 42) (.error (.authorityUnavailable .rateLimited)))]⟩
  | _ => ⟨[], earlyAt 56, earlyAt 57, []⟩

end FolioLedger
