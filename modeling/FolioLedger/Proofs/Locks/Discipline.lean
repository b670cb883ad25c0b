import FolioLedger.Proofs.Ledger.Numbering
import FolioLedger.Proofs.Locks.Rows
import FolioLedger.Proofs.Replenish.Polling
import FolioLedger.Proofs.Replenish.Submission

/-!
# Leases of triggers and polls

A trigger that asks for a range keeps the lock of its series for the poll that follows, and any other
trigger does not (`TriggerOutcome.Leaves`).  A poll gives its lock back at the turn that ends it,
whichever that is, and no turn of a poll does anything to a lock that somebody else took over
(`Poll.Minds`).  Others may act between the submission of a request and its record, and between any
two turns of a poll.
-/

namespace FolioLedger

open Store Polling

variable {m : Monitor} {v : Verifier} {s t : Store} {now later : Instant} {token : String}
  {series : Series} {threshold : Nat}

/-! ## Triggers -/

/-- How a trigger leaves the lock of its series: it goes from `s` to `t` under a token that was drawn
for it.  A lease may lapse only while the request is submitted. -/
def TriggerOutcome.Leaves (key token : String) (lapsed : Prop) (s t : Store) :
    Except Failure TriggerOutcome → Prop
  | .ok .alreadyInFlight => t = s
  | .ok (.aboveThreshold _) | .error _ => t.FreeOf key token
  | .ok (.pendingExists _ lease) | .ok (.submitted _ lease) =>
    lease.key = key ∧ lease.token = token ∧ (lapsed ∨ t.Held lease)

namespace Monitor

theorem prepareLocked_inl {lease : Lease} {outcome : TriggerOutcome}
    (h : m.prepareLocked s now series threshold lease = .ok (.inl outcome)) :
    (∃ request, outcome = .pendingExists request lease) ∨
      ∃ remaining, outcome = .aboveThreshold remaining := by
  unfold prepareLocked at h
  obtain ⟨pending, -, h⟩ := bind_eq_ok.1 h
  cases pending with
  | some request =>
    cases h
    exact .inl ⟨request, rfl⟩
  | none =>
    simp only at h
    split at h
    · cases h
      exact .inr ⟨_, rfl⟩
    · obtain ⟨request, -, h⟩ := bind_eq_ok.1 h
      cases h

/-- A trigger is done without a submission, or it submits under a lease. -/
theorem prepare_leaves (s : Store) (later : Instant) (token : String) (series : Series)
    (threshold : Nat) (hnow : 0 < now.toMillis)
    (htimely : ∃ d, Instant.ofMillis (Lock.deadline now.toMillis m.lockTtl) = .ok d) :
    (∃ outcome t, m.prepare s now later token series threshold = (.done outcome, t) ∧
      TriggerOutcome.Leaves (Lock.replenishment series) token False s t outcome) ∨
    ∃ draft t, m.prepare s now later token series threshold = (.submit draft, t) ∧
      draft.lease.key = Lock.replenishment series ∧ draft.lease.token = token ∧
      t.Lends draft.lease := by
  have hacquire := acquire_timely (s := s) htimely token (Lock.replenishment series)
  unfold prepare
  rcases hacquire with hbusy | ⟨lease, u, hlease⟩
  · rw [hbusy]
    exact .inl ⟨_, _, rfl, rfl⟩
  obtain ⟨hkey, htoken, hlends⟩ := acquire_lends hnow hlease
  have hfree : (u.release lease).FreeOf (Lock.replenishment series) token := by
    rw [← hkey, ← htoken]
    exact .release u lease
  rw [hlease]
  simp only
  cases hlocked : m.prepareLocked u later series threshold lease with
  | error failure => exact .inl ⟨_, _, rfl, hfree⟩
  | ok next =>
    cases next with
    | inl outcome =>
      rcases prepareLocked_inl hlocked with ⟨request, rfl⟩ | ⟨remaining, rfl⟩
      · exact .inl ⟨_, _, rfl, hkey, htoken, .inr hlends.held⟩
      · exact .inl ⟨_, _, rfl, hfree⟩
    | inr draft =>
      obtain ⟨rfl, -⟩ := prepareLocked_eq_ok hlocked
      exact .inr ⟨draft, u, rfl, hkey, htoken, hlends⟩

theorem record_leaves {draft : Draft} {lapsed : Prop} (h : lapsed ∨ t.Lends draft.lease)
    (s : Store) (answer : Except Failure String) :
    TriggerOutcome.Leaves draft.lease.key draft.lease.token lapsed s (record t draft answer).2
      (record t draft answer).1 := by
  have hfree := FreeOf.release t draft.lease
  unfold record
  cases answer with
  | error failure => exact hfree
  | ok trackingId =>
    simp only
    cases hrecord : t.recordRequest (recordOf draft trackingId) with
    | error failure => exact hfree
    | ok u =>
      obtain ⟨-, rfl⟩ := recordRequest_eq_ok_iff.1 hrecord
      exact ⟨rfl, rfl, h.imp_right fun hlends => (hlends.of_locks rfl).held⟩

end Monitor

/-! ## Turns of a poll -/

/-- What a poll that goes on from `s` and comes to a stage at `t` does to locks. -/
structure Poll.Minds (p : Poll) (s : Store) (stage : PollStage) (t : Store) : Prop where
  spares : Spares p.lease.token s t
  frees : stage.HasEnded → t.FreeOf p.lease.key p.lease.token

namespace Poll.Minds

variable {p : Poll} {stage : PollStage}

theorem of_locks (h : t.locks = s.locks) (hstage : ¬ stage.HasEnded) : p.Minds s stage t :=
  ⟨.of_locks h, fun hended => absurd hended hstage⟩

/-- A poll that ends gives its lock back, however often it was renewed. -/
theorem finish (h : Spares p.lease.token s t) (deadline : Instant)
    (outcome : Except Failure PollOutcome) :
    p.Minds s (.ended outcome) (t.release { p.lease with deadline := deadline }) :=
  ⟨h.trans (.release t { p.lease with deadline := deadline }),
    fun _ => .release t { p.lease with deadline := deadline }⟩

end Poll.Minds

namespace Poll

variable (p : Poll)

theorem not_hasEnded_afterFailure (failure : Failure) : ¬ (afterFailure failure).HasEnded := by
  rcases afterFailure_cases failure with h | ⟨h, -⟩ <;> rw [h] <;> exact id

theorem tick_minds (m : Monitor) (s : Store) (now later : Instant) :
    p.Minds s (p.tick m s now later).1.1 (p.tick m s now later).2.1 := by
  have hspares := Spares.renew s now m.lockTtl p.lease
  unfold tick
  split
  · next failure u hrenew =>
    rw [hrenew] at hspares
    exact .finish hspares p.lease.deadline _
  · next lease u hrenew =>
    rw [hrenew] at hspares
    rw [renew_eq_ok hrenew]
    simp only
    split
    · split
      · exact .finish hspares lease.deadline _
      · next w hresolve =>
        exact .finish (hspares.trans (.of_locks (resolve_locks hresolve))) lease.deadline _
    · exact ⟨hspares, fun hended => hended.elim⟩

theorem answered_minds (s : Store) (since : Instant) (answer : Except Failure AuthorityStatus) :
    p.Minds s (p.answered s since answer).1 (p.answered s since answer).2.1 := by
  unfold answered
  split
  · split
    · exact .of_locks rfl id
    · exact .finish (.refl _ s) p.lease.deadline _
  · exact .of_locks rfl id
  · split
    · exact .finish (.refl _ s) p.lease.deadline _
    · next u hresolve =>
      exact .finish (.of_locks (resolve_locks hresolve)) p.lease.deadline _
  · exact .of_locks rfl id

theorem register_minds (m : Monitor) (faulty : Option Nat) (s : Store) (id : String) (now : Instant)
    (new : NewRange) :
    p.Minds s (p.register m faulty s id now new).1 (p.register m faulty s id now new).2 := by
  have hturn : Turn now [] [] s (p.register m faulty s id now new).2 :=
    p.register_turn s m faulty id now new
  refine .of_locks hturn.locks_eq_of_nil ?_
  rcases p.register_cases s m faulty id now new with
    ⟨range, t, -, h⟩ | ⟨existing, range, -, -, h⟩ | ⟨failure, h⟩ <;> rw [h]
  · exact fun hended => hended.elim
  · exact fun hended => hended.elim
  · exact not_hasEnded_afterFailure failure

theorem accept_minds (s : Store) (now : Instant) (range : Range) :
    p.Minds s (p.accept s now range).1 (p.accept s now range).2 := by
  unfold accept
  split
  · next failure _ => exact .of_locks rfl (not_hasEnded_afterFailure failure)
  · next u hresolve =>
    split <;> exact .finish (.of_locks (resolve_locks hresolve)) p.lease.deadline _

theorem reject_minds (s : Store) (now : Instant) (failure : Failure) :
    p.Minds s (p.reject s now failure).1 (p.reject s now failure).2.1 := by
  unfold reject
  split
  · exact .finish (.refl _ s) p.lease.deadline _
  · next u hresolve =>
    exact .finish (.of_locks (resolve_locks hresolve)) p.lease.deadline _

end Poll

namespace Polling

variable {q : Polling}

/-- Whatever turn it is, a poll that has not ended minds its lock. -/
theorem go_minds (h : ¬ q.stage.HasEnded) (s : Store) (step : PollStep) :
    q.poll.Minds s (q.go m v s step).1.stage (q.go m v s step).2 := by
  obtain ⟨poll, stage, alerts⟩ := q
  cases stage <;> cases step <;> try exact .of_locks rfl h
  case waiting.tick now later => exact poll.tick_minds m s now later
  case waiting.cancel => exact .finish (.refl _ s) poll.lease.deadline _
  case asking.answered since answer => exact poll.answered_minds s since answer
  case fetching.delivered location now answer =>
    refine .of_locks rfl ?_
    show ¬ (poll.delivered v now answer).HasEnded
    rcases poll.delivered_cases v now answer with ⟨_, _, _, -, -, -, hstage⟩ | ⟨failure, hstage⟩ <;>
      rw [hstage]
    · exact fun hended => hended.elim
    · exact Poll.not_hasEnded_afterFailure failure
  case registering.register new faulty id now => exact poll.register_minds m faulty s id now new
  case accepting.accept range now => exact poll.accept_minds s now range
  case rejecting.reject failure now => exact poll.reject_minds s now failure

/-- A poll goes on under one token. -/
theorem go_lease (q : Polling) (s : Store) (step : PollStep) :
    (q.go m v s step).1.poll.lease.key = q.poll.lease.key ∧
      (q.go m v s step).1.poll.lease.token = q.poll.lease.token := by
  obtain ⟨poll, stage, alerts⟩ := q
  cases stage <;> cases step <;> try exact ⟨rfl, rfl⟩
  simp only [go, Poll.tick]
  split
  · exact ⟨rfl, rfl⟩
  · next lease u hrenew =>
    rw [renew_eq_ok hrenew]
    split
    · split <;> exact ⟨rfl, rfl⟩
    · exact ⟨rfl, rfl⟩

theorem follow_lease (q : Polling) (s : Store) (hs : List Happening) :
    (follow m v (q, s) hs).1.poll.lease.key = q.poll.lease.key ∧
      (follow m v (q, s) hs).1.poll.lease.token = q.poll.lease.token := by
  induction hs generalizing q s with
  | nil => exact ⟨rfl, rfl⟩
  | cons happening hs ih =>
    cases happening with
    | own step =>
      obtain ⟨hkey, htoken⟩ := ih (q.go m v s step).1 (q.go m v s step).2
      obtain ⟨hkey', htoken'⟩ := go_lease (m := m) (v := v) q s step
      exact ⟨hkey.trans hkey', htoken.trans htoken'⟩
    | other event => exact ih q (s.after event)

/-! ## Courses of a poll -/

theorem go_spares (q : Polling) (s : Store) (step : PollStep) :
    Spares q.poll.lease.token s (q.go m v s step).2 := by
  by_cases hended : q.stage.HasEnded
  · rw [go_of_ended hended]
  · exact (go_minds hended s step).spares

theorem follow_own_spares (q : Polling) (s : Store) (steps : List PollStep) :
    Spares q.poll.lease.token s (follow m v (q, s) (steps.map .own)).2 := by
  induction steps generalizing q s with
  | nil => exact .refl _ s
  | cons step steps ih =>
    have hrest := ih (q.go m v s step).1 (q.go m v s step).2
    rw [(go_lease q s step).2] at hrest
    exact (go_spares q s step).trans hrest

/-- Once a poll has ended, its lock is free of its token. -/
theorem follow_frees {p : Poll} (hs : List Happening)
    (hothers : ∀ e, .other e ∈ hs → p.lease.token ∉ e.call.tokens)
    (hended : (follow m v (p.begun, s) hs).1.stage.HasEnded) :
    (follow m v (p.begun, s) hs).2.FreeOf p.lease.key p.lease.token := by
  -- By induction on the course from its end: the last happening ends the poll, or it had ended.
  induction hs using List.reverseRecOn with
  | nil => exact hended.elim
  | append_singleton hs happening ih =>
    have hbefore : ∀ e, .other e ∈ hs → p.lease.token ∉ e.call.tokens :=
      fun e he => hothers e (List.mem_append_left _ he)
    obtain ⟨hkey, htoken⟩ := follow_lease (m := m) (v := v) p.begun s hs
    rw [follow_append] at hended ⊢
    generalize follow m v (p.begun, s) hs = here at *
    obtain ⟨q, t⟩ := here
    cases happening with
    | own step =>
      by_cases hover : q.stage.HasEnded
      · have hsame : follow m v (q, t) [.own step] = (q, t) := go_of_ended hover step
        rw [hsame]
        exact ih hbefore hover
      · have hfree := (go_minds hover t step).frees hended
        rw [hkey, htoken] at hfree
        exact hfree
    | other e => exact (ih hbefore hended).turns (e.turns t) (hothers e (by simp))

end Polling

/-! ## Polls that nobody interrupts -/

namespace Workshop

variable {M : Type → Type} [Monad M] [LawfulMonad M] (world : World M) (w : Workshop)

theorem tick_frees (p : Poll) (s : Store) :
    Always (fun out => Spares p.lease.token s out.2.2.1 ∧
        (out.2.1.isSome → out.2.2.1.FreeOf p.lease.key p.lease.token) ∧
        out.1.lease.key = p.lease.key ∧ out.1.lease.token = p.lease.token)
      (w.tick world p s) := by
  refine (w.tick_follows world p s).imp fun out hout => ?_
  obtain ⟨now, later, stage, steps, -, hsteps, -, houtcome⟩ := hout
  rw [← List.map_cons] at hsteps
  have hspares := follow_own_spares (m := w.monitor) (v := w.verifier) p.begun s
    (.tick now later :: steps)
  have hlease := follow_lease (m := w.monitor) (v := w.verifier) p.begun s
    ((.tick now later :: steps).map .own)
  have hfrees := follow_frees (m := w.monitor) (v := w.verifier) (s := s) (p := p)
    ((.tick now later :: steps).map .own) (by simp)
  rw [hsteps] at hspares hlease hfrees
  refine ⟨hspares, fun hsome => hfrees ?_, hlease⟩
  rw [houtcome] at hsome
  cases stage <;> trivial

theorem poll_frees (interval ticks : Nat) (p : Poll) (s : Store) :
    Always (fun out => Spares p.lease.token s out.2.1 ∧
        out.2.1.FreeOf p.lease.key p.lease.token)
      (w.poll world interval ticks p s) := by
  have hcancelled : ∀ (p : Poll) (s : Store), Spares p.lease.token s (p.cancel s).2 ∧
      (p.cancel s).2.FreeOf p.lease.key p.lease.token :=
    fun p s => ⟨.release s p.lease, .release s p.lease⟩
  induction ticks generalizing p s with
  | zero => exact .pure (hcancelled p s)
  | succ ticks ih =>
    unfold poll
    refine .any_bind fun called => ?_
    split
    · exact .pure (hcancelled p s)
    refine .any_bind fun _ => .any_bind fun calledLater => ?_
    split
    · exact .pure (hcancelled p s)
    refine (w.tick_frees world p s).bind fun out hout => ?_
    obtain ⟨p', outcome, t, alerts⟩ := out
    obtain ⟨hspares, hfree, hkey, htoken⟩ := hout
    cases outcome with
    | some outcome => exact .pure ⟨hspares, hfree rfl⟩
    | none =>
      refine (ih p' t).bind fun out hout => .pure ?_
      rw [hkey, htoken] at hout
      exact ⟨hspares.trans hout.1, hout.2⟩

end Workshop

theorem Monitor.takeUp_leaves (s : Store) (token trackingId : String) (hnow : 0 < now.toMillis)
    (htimely : ∃ d, Instant.ofMillis (Lock.deadline now.toMillis m.lockTtl) = .ok d) :
    (∃ outcome, m.takeUp s now token trackingId = (.done outcome, s)) ∨
      ∃ request lease t, m.takeUp s now token trackingId = (.locked request lease, t) ∧
        lease.key = Lock.replenishment request.series ∧ lease.token = token ∧ t.Held lease := by
  unfold Monitor.takeUp
  cases hrequest : s.getRequest trackingId with
  | error failure => exact .inl ⟨_, rfl⟩
  | ok request =>
    by_cases hfinal : request.status.isFinal
    · simp only [hfinal, if_true]
      exact .inl ⟨_, rfl⟩
    · simp only [hfinal]
      rcases acquire_timely (s := s) htimely token (Lock.replenishment request.series) with
        hbusy | ⟨lease, t, hlease⟩
      · rw [hbusy]
        exact .inl ⟨_, rfl⟩
      · rw [hlease]
        obtain ⟨hkey, htoken, hlends⟩ := acquire_lends hnow hlease
        exact .inr ⟨request, lease, t, rfl, hkey, htoken, hlends.held⟩

/-! ## The discipline -/

/-- What a course of a poll does to locks: no turn touches a lock that is not held with its token, the
turn that ends it gives its lock back, and then its token never holds the lock again, unless somebody
else has the token too. -/
structure Poll.Disciplined (p : Poll) (m : Monitor) (v : Verifier) (s : Store)
    (hs : List Happening) : Prop where
  spares : ∀ step, Spares p.lease.token (follow m v (p.begun, s) hs).2
    (follow m v (p.begun, s) (hs ++ [.own step])).2
  frees : ∀ step, ¬ (follow m v (p.begun, s) hs).1.stage.HasEnded →
    (follow m v (p.begun, s) (hs ++ [.own step])).1.stage.HasEnded →
    (follow m v (p.begun, s) (hs ++ [.own step])).2.FreeOf p.lease.key p.lease.token
  free : (∀ e, .other e ∈ hs → p.lease.token ∉ e.call.tokens) →
    (follow m v (p.begun, s) hs).1.stage.HasEnded →
    (follow m v (p.begun, s) hs).2.FreeOf p.lease.key p.lease.token

theorem Poll.disciplined (p : Poll) (m : Monitor) (v : Verifier) (s : Store)
    (hs : List Happening) : p.Disciplined m v s hs := by
  obtain ⟨hkey, htoken⟩ := follow_lease (m := m) (v := v) p.begun s hs
  constructor
  · intro step
    rw [follow_append]
    have hspares := go_spares (m := m) (v := v) (follow m v (p.begun, s) hs).1
      (follow m v (p.begun, s) hs).2 step
    rw [htoken] at hspares
    exact hspares
  · intro step hgoing hended
    rw [follow_append] at hended ⊢
    have hfree := (go_minds hgoing (follow m v (p.begun, s) hs).2 step).frees hended
    rw [hkey, htoken] at hfree
    exact hfree
  · exact follow_frees hs

/-- A trigger leaves the lock of its series to the poll that follows, or free of its token, whatever
the authority answers and whatever others do while the request is submitted.  A poll that is taken up
has the lock or nothing, and however it goes, it gives back what it has and touches nothing else. -/
theorem lease_discipline (m : Monitor) (s : Store) (now : Instant) (token : String)
    (hnow : 0 < now.toMillis)
    (htimely : ∃ d, Instant.ofMillis (Lock.deadline now.toMillis m.lockTtl) = .ok d)
    (hfresh : ∀ r ∈ s.locks, r.token ≠ token) :
    (∀ later series threshold,
      (∃ outcome t, m.prepare s now later token series threshold = (.done outcome, t) ∧
        TriggerOutcome.Leaves (Lock.replenishment series) token False s t outcome) ∨
      ∃ draft t, m.prepare s now later token series threshold = (.submit draft, t) ∧
        ∀ fs answer, (∀ f ∈ fs, token ∉ f.call.tokens) →
          TriggerOutcome.Leaves (Lock.replenishment series) token
            (∃ f ∈ fs, draft.lease.deadline.toMillis < f.clock.toMillis) (t.run fs)
            (Monitor.record (t.run fs) draft answer).2
            (Monitor.record (t.run fs) draft answer).1) ∧
    (∀ trackingId,
      (∃ outcome, m.takeUp s now token trackingId = (.done outcome, s) ∧
        ∀ key, s.FreeOf key token) ∨
      ∃ request lease t, m.takeUp s now token trackingId = (.locked request lease, t) ∧
        lease.key = Lock.replenishment request.series ∧ lease.token = token ∧ t.Held lease ∧
        ∀ p ∈ Poll.start? m request lease, p.lease = lease) ∧
    (∀ (p : Poll) (v : Verifier) (t : Store) (hs : List Happening), p.Disciplined m v t hs) ∧
    ∀ (M : Type → Type) [Monad M] [LawfulMonad M] (world : World M) (w : Workshop)
      (interval ticks : Nat) (p : Poll) (t : Store),
      Always (fun out => Spares p.lease.token t out.2.1 ∧
          out.2.1.FreeOf p.lease.key p.lease.token)
        (w.poll world interval ticks p t) := by
  refine ⟨fun later series threshold => ?_, fun trackingId => ?_, ?_, ?_⟩
  · rcases m.prepare_leaves s later token series threshold hnow htimely with
      hdone | ⟨draft, t, hsubmit, hkey, htoken, hlends⟩
    · exact .inl hdone
    · refine .inr ⟨draft, t, hsubmit, fun fs answer hothers => ?_⟩
      rw [← htoken] at hothers
      have hkept : (∃ f ∈ fs, draft.lease.deadline.toMillis < f.clock.toMillis) ∨
          (t.run fs).Lends draft.lease := by
        by_cases hlapsed : ∃ f ∈ fs, draft.lease.deadline.toMillis < f.clock.toMillis
        · exact .inl hlapsed
        · refine .inr (hlends.run hothers fun f hf => ?_)
          exact Int.not_lt.1 fun hlt => hlapsed ⟨f, hf, hlt⟩
      have hleaves := Monitor.record_leaves hkept (t.run fs) answer
      rw [hkey, htoken] at hleaves
      exact hleaves
  · rcases m.takeUp_leaves s token trackingId hnow htimely with
      ⟨outcome, hdone⟩ | ⟨request, lease, t, hlocked, hkey, htoken, hheld⟩
    · exact .inl ⟨outcome, hdone, fun key => .of_fresh hfresh⟩
    · refine .inr ⟨request, lease, t, hlocked, hkey, htoken, hheld, fun p hp => ?_⟩
      obtain ⟨deadline, -, rfl⟩ := Option.map_eq_some_iff.1 hp
      rfl
  · intro p v t hs
    exact p.disciplined m v t hs
  · intro M _ _ world w interval ticks p t
    exact w.poll_frees world interval ticks p t

/-- The first request of a series. -/
def firstDraft : Draft :=
  ⟨⟨⟨"A", "T"⟩, 1, 5⟩, earlyAt 1, ⟨"replenish:A:T", "token", 1, earlyAt 21⟩⟩

/-- The store when it is submitted. -/
def firstStore : Store :=
  (Monitor.prepare ⟨5, 10, 20000, 60⟩ Store.empty (earlyAt 1) (earlyAt 1) "token" ⟨"A", "T"⟩ 1).2

/-- The lock is held under the lease of the trigger after the answer, and free of its token after the
poll is called off. -/
theorem lease_discipline_firstDraft :
    (Monitor.record firstStore firstDraft (.ok "trk-1")).2.Held firstDraft.lease ∧
      (follow ⟨5, 10, 20000, 60⟩ ⟨[], 6⟩
        ((⟨Monitor.recordOf firstDraft "trk-1", firstDraft.lease, earlyAt 50⟩ : Poll).begun,
          (Monitor.record firstStore firstDraft (.ok "trk-1")).2)
        [.own .cancel]).2.FreeOf "replenish:A:T" "token" := by
  obtain ⟨htrigger, -, hpoll, -⟩ := lease_discipline ⟨5, 10, 20000, 60⟩ Store.empty (earlyAt 1)
    "token" (by decide) ⟨earlyAt 21, rfl⟩ (by decide)
  constructor
  · have hprepare : Monitor.prepare ⟨5, 10, 20000, 60⟩ Store.empty (earlyAt 1) (earlyAt 1) "token"
        ⟨"A", "T"⟩ 1 = (.submit firstDraft, firstStore) := rfl
    rcases htrigger (earlyAt 1) ⟨"A", "T"⟩ 1 with ⟨outcome, t, hdone, -⟩ | ⟨draft, t, hsubmit, hleaves⟩
    · rw [hprepare] at hdone
      cases hdone
    · rw [hprepare] at hsubmit
      cases hsubmit
      obtain ⟨-, -, hheld⟩ := hleaves [] (.ok "trk-1") (by simp)
      exact hheld.resolve_left (by simp)
  · exact (hpoll _ ⟨[], 6⟩ _ []).frees .cancel id trivial

end FolioLedger
