import FolioLedger.Proofs.Ledger.Coverage
import FolioLedger.Proofs.Replenish.Outstanding

/-!
# Requests that were taken and not recorded

A request goes to the authority before it is recorded, and the two ask for different things: a
request may have numbers of 64 bits, the table has room up to `maxNumber`.  Once its request was
taken, a trigger that nobody overtakes fails exactly if the last number is beyond that
(`Workshop.trigger_taken`).  One that is overtaken fails also if another request of its series was
entered meanwhile (`record_taken`), which does not happen while its lease lasts (`Course.taken`).
At the end of the numbers triggers do fail that way (`taken_and_unrecorded`).
-/

namespace FolioLedger

open Store Course

variable {s : Store} {e : Event} {draft : Draft} {trackingId : String}

/-- What a trigger gives once the authority took its request: it fails exactly in one case, and in
all others the request is in the table from then on. -/
structure Taken (out : Except Failure TriggerOutcome × Store) (request : RangeRequest)
    (trackingId : String) (obstacle : Prop) : Prop where
  fails : (∃ failure, out.1 = .error failure) ↔ obstacle
  recorded : ¬ obstacle → ∀ es, ∃ r ∈ (out.2.run es).requests, r.Stores trackingId request

theorem Taken.congr {out : Except Failure TriggerOutcome × Store} {request : RangeRequest}
    {p q : Prop} (h : Taken out request trackingId p) (hpq : p ↔ q) :
    Taken out request trackingId q where
  fails := h.fails.trans hpq
  recorded hq := h.recorded fun hp => hq (hpq.1 hp)

theorem Monitor.record_eq_error_iff (hbounds : draft.request.first ≤ draft.request.last)
    (hfresh : ∀ r ∈ s.requests, r.trackingId ≠ trackingId) :
    (∃ failure, (Monitor.record s draft (.ok trackingId)).1 = .error failure) ↔
      maxNumber < draft.request.last ∨
        ∃ r ∈ s.requests, r.series = draft.request.series ∧ r.state = .pending := by
  have herror : (∃ failure, (Monitor.record s draft (.ok trackingId)).1 = .error failure) ↔
      ∀ t, s.recordRequest (recordOf draft trackingId) ≠ .ok t := by
    simp only [Monitor.record]
    cases s.recordRequest (recordOf draft trackingId) <;> simp
  rw [herror]
  constructor
  · intro hnever
    by_contra hnone
    obtain ⟨hlast, halone⟩ := not_or.1 hnone
    have hlast : draft.request.last ≤ maxNumber := Nat.not_lt.1 hlast
    have halone : ∀ q ∈ s.requests, q.series = draft.request.series → q.state ≠ .pending :=
      fun q hq hseries hpending => halone ⟨q, hq, hseries, hpending⟩
    exact hnever _ (recordRequest_eq_ok_iff.2
      ⟨⟨rfl, ⟨Nat.le_trans hbounds hlast, hlast⟩, hfresh, halone⟩, rfl⟩)
  · rintro (hlast | ⟨r, hr, hseries, hpending⟩) t hok
    · obtain ⟨⟨-, hstorable, -⟩, -⟩ := recordRequest_eq_ok_iff.1 hok
      exact Nat.not_lt.2 hstorable.2 hlast
    · obtain ⟨⟨-, -, -, halone⟩, -⟩ := recordRequest_eq_ok_iff.1 hok
      exact halone r hr hseries hpending

/-- Recording a request under a new tracking id. -/
theorem Monitor.record_taken (hbounds : draft.request.first ≤ draft.request.last)
    (hfresh : ∀ r ∈ s.requests, r.trackingId ≠ trackingId) :
    Taken (Monitor.record s draft (.ok trackingId)) draft.request trackingId
      (maxNumber < draft.request.last ∨
        ∃ r ∈ s.requests, r.series = draft.request.series ∧ r.state = .pending) := by
  have hiff := Monitor.record_eq_error_iff hbounds hfresh
  refine ⟨hiff, fun hnone es => ?_⟩
  cases hout : (Monitor.record s draft (.ok trackingId)).1 with
  | error failure => exact absurd (hiff.1 ⟨failure, hout⟩) hnone
  | ok outcome =>
    obtain ⟨trackingId', hanswer, r, hr, hstores, -⟩ := Monitor.record_eq_ok hout
    obtain rfl : trackingId = trackingId' := Except.ok.inj hanswer
    obtain ⟨r', hr', hkept⟩ := KeepsRequests.run _ es r hr
    exact ⟨r', hr', hkept.stores hstores⟩

/-! ## Triggers that nobody overtakes -/

/-- A world that notes each request that its authority takes, with the tracking id. -/
def World.noting {m : Type → Type} [Monad m] (world : World m) :
    World (StateT (List (RangeRequest × String)) m) where
  authority :=
    { submit := fun request => do
        match ← StateT.lift (world.authority.submit request) with
        | .ok trackingId =>
          modify (· ++ [(request, trackingId)])
          return .ok trackingId
        | .error failure => return .error failure
      status := fun trackingId => StateT.lift (world.authority.status trackingId)
      download := fun location => StateT.lift (world.authority.download location) }
  now := StateT.lift world.now
  freshToken := StateT.lift world.freshToken
  freshRangeId := StateT.lift world.freshRangeId
  isCancelled := StateT.lift world.isCancelled
  pause ms := StateT.lift (world.pause ms)

theorem Workshop.trigger_taken {m : Type → Type} [Monad m] [LawfulMonad m] (w : Workshop)
    (world : World m) (s : Store) (series : Series) (threshold : Nat) :
    Always (fun out => ∀ request trackingId, (request, trackingId) ∈ out.2 →
        (∀ r ∈ s.requests, r.trackingId ≠ trackingId) →
        Taken out.1 request trackingId (maxNumber < request.last))
      ((w.trigger world.noting s series threshold).run []) := by
  simp only [trigger, World.noting, StateT.run_bind, StateT.run_lift, bind_assoc, pure_bind]
  refine .any_bind fun now => .any_bind fun later => .any_bind fun token => ?_
  split
  · refine .pure ?_
    simp
  · next draft t h =>
    obtain ⟨-, hsubmitted⟩ := Monitor.prepare_submitted h
    simp only [StateT.run_bind, StateT.run_lift, bind_assoc, pure_bind]
    refine .any_bind fun answer => ?_
    cases answer with
    | error failure =>
      simp only [StateT.run_pure, pure_bind]
      refine .pure ?_
      simp
    | ok trackingId =>
      simp only [StateT.run_bind, StateT.run_modify, StateT.run_pure, pure_bind]
      refine .pure ?_
      intro request trackingId' hmem hfresh
      obtain ⟨rfl, rfl⟩ : request = draft.request ∧ trackingId' = trackingId := by simpa using hmem
      rw [← hsubmitted.requests] at hfresh
      refine (Monitor.record_taken hsubmitted.bounds hfresh).congr (or_iff_left ?_)
      rintro ⟨r, hr, hseries, hpending⟩
      exact hsubmitted.idle r (hsubmitted.requests ▸ hr) hseries hpending

/-! ## Triggers that are overtaken -/

/-- The trigger that submitted a request at `e` goes on after some other events. -/
theorem record_taken (hsub : s.submission? e = some draft) (fs : List Event)
    (hfresh : ∀ r ∈ ((s.after e).run fs).requests, r.trackingId ≠ trackingId) :
    Taken (Monitor.record ((s.after e).run fs) draft (.ok trackingId)) draft.request trackingId
      (maxNumber < draft.request.last ∨
        ∃ r ∈ ((s.after e).run fs).requests, r.series = draft.request.series ∧
          r.state = .pending ∧ r ∉ s.requests ∧ ∃ f ∈ fs, r.series ∈ f.call.entered) := by
  obtain ⟨token, -, -, hsubmitted⟩ := submission?_eq_some hsub
  refine (Monitor.record_taken hsubmitted.bounds hfresh).congr (or_congr_right ⟨?_, ?_⟩)
  · rintro ⟨r, hr, hseries, hpending⟩
    -- At the submission no request of the series was pending.
    have hnew : r ∉ s.requests := fun hold => hsubmitted.idle r hold hseries hpending
    have hsame : (s.after e).requests = s.requests := hsubmitted.requests
    rcases run_mem_or_entered _ fs hr hpending with hold | hentered
    · exact absurd (hsame ▸ hold) hnew
    · exact ⟨r, hr, hseries, hpending, hnew, hentered⟩
  · rintro ⟨r, hr, hseries, hpending, -⟩
    exact ⟨r, hr, hseries, hpending⟩

/-- Once the authority took its request, a trigger fails exactly if the last number of the request
is too large for the store, or if it was overtaken by another request of its series that is pending.
If it does not fail, the request is recorded. -/
theorem unrecorded_iff (s : Store) :
    (∀ (m : Type → Type) [Monad m] [LawfulMonad m] (w : Workshop) (world : World m)
      (series : Series) (threshold : Nat),
      Always (fun out => ∀ request trackingId, (request, trackingId) ∈ out.2 →
          (∀ r ∈ s.requests, r.trackingId ≠ trackingId) →
          Taken out.1 request trackingId (maxNumber < request.last))
        ((w.trigger world.noting s series threshold).run [])) ∧
    ∀ (e : Event) (draft : Draft) (fs : List Event) (trackingId : String),
      s.submission? e = some draft →
      (∀ r ∈ ((s.after e).run fs).requests, r.trackingId ≠ trackingId) →
      Taken (Monitor.record ((s.after e).run fs) draft (.ok trackingId)) draft.request trackingId
        (maxNumber < draft.request.last ∨
          ∃ r ∈ ((s.after e).run fs).requests, r.series = draft.request.series ∧
            r.state = .pending ∧ r ∉ s.requests ∧ ∃ f ∈ fs, r.series ∈ f.call.entered) := by
  constructor
  · intro m _ _ w world series threshold
    exact w.trigger_taken world s series threshold
  · intro e draft fs trackingId hsub hfresh
    exact record_taken hsub fs hfresh

/-- The first request of `overtaking` is in the table at its end. -/
theorem unrecorded_iff_overtaking :
    ∃ r ∈ (Store.empty.run overtaking).requests, r.Stores "trk-1" overtaken.request := by
  have hsub : Store.empty.submission? overtaking[0] = some overtaken := by decide
  have hfresh : ∀ r ∈ ((Store.empty.after overtaking[0]).run [overtaking[1]]).requests,
      r.trackingId ≠ "trk-1" := by decide
  obtain ⟨-, hovertaken⟩ := unrecorded_iff Store.empty
  have htaken := hovertaken overtaking[0] overtaken [overtaking[1]] "trk-1" hsub hfresh
  exact htaken.recorded (by decide) (overtaking.drop 3)

/-- A world with an authority that takes every request. -/
def takingAll : World Id where
  authority :=
    { submit := fun _ => return .ok "trk-1"
      status := fun _ => return .ok .pending
      download := fun _ => return .ok .empty }
  now := return earlyAt 2
  freshToken := return "token"
  freshRangeId := return "range"
  isCancelled := return false
  pause _ := return ()

/-- The last number that a store can hold is registered. -/
def lastNumber : List Event :=
  [⟨earlyAt 1, .register 10 none "top"
    ⟨⟨"A", "T"⟩, 9223372036854775807, 9223372036854775807, earlyAt 0, earlyAt 50, none, none⟩⟩]

/-- The request for the numbers beyond is taken, and the trigger fails and records nothing. -/
theorem taken_and_unrecorded :
    ∃ t, (Workshop.trigger ⟨⟨5, 10, 20000, 60⟩, ⟨[], 6⟩, none⟩ takingAll.noting
        (Store.empty.run lastNumber) ⟨"A", "T"⟩ 1).run [] =
      ((.error (.invalidRange (.numberTooLarge 9223372036854775808)), t),
        [(⟨⟨"A", "T"⟩, 9223372036854775808, 9223372036854775812⟩, "trk-1")]) ∧ t.requests = [] :=
  ⟨_, rfl, rfl⟩

/-! ## While leases last -/

/-- A call leaves a request waiting, and enters another of the series only as a trigger does. -/
structure Call.Spares (c : Call) (draft : Draft) : Prop where
  waits : draft ∉ c.recorded
  entered : draft.request.series ∈ c.entered →
    ∃ d ∈ c.recorded, d.request.series = draft.request.series

namespace Course

variable {k : Course}

/-- A request waits alone of its series, and none of the series is pending. -/
structure Alone (k : Course) (draft : Draft) : Prop where
  sound : k.Sound draft.request.series
  waits : draft ∈ k.waiting
  only : ∀ d ∈ k.waiting, d.request.series = draft.request.series → d = draft
  idle : ∀ r ∈ k.store.requests, r.series = draft.request.series → r.state ≠ .pending

theorem Alone.of_submission (h : k.Sound draft.request.series)
    (ha : k.Allows draft.request.series e) (hsub : k.store.submission? e = some draft) :
    (k.after e).Alone draft := by
  obtain ⟨token, -, -, hsubmitted⟩ := submission?_eq_some hsub
  have hrequests : (k.after e).store.requests = k.store.requests := hsubmitted.requests
  refine ⟨h.after ha, mem_waiting_of_submission hsub, ?_, hrequests ▸ hsubmitted.idle⟩
  rw [waiting_of_submission hsub]
  intro d hd hseries
  rcases List.mem_append.1 hd with hd | hd
  · exact absurd hseries (h.not_waiting ha hsub rfl d hd)
  · exact List.mem_singleton.1 hd

theorem Alone.after (h : k.Alone draft) (ha : k.Allows draft.request.series e)
    (hspares : e.call.Spares draft) : (k.after e).Alone draft := by
  refine ⟨h.sound.after ha, ?_, ?_, ?_⟩
  · have hwaits := hspares.waits
    simp [Course.after, h.waits, hwaits]
  · intro d hd hseries
    rcases List.mem_append.1 hd with hd | hd
    · exact h.only d (List.mem_filter.1 hd).1 hseries
    · -- A new request of the series would find the lock held.
      have hsub : k.store.submission? e = some d := Option.mem_toList.1 hd
      exact absurd rfl (h.sound.not_waiting ha hsub hseries draft h.waits)
  · intro r hr hseries hpending
    rcases Turns.mem_or_entered (e.turns k.store) hr hpending with hold | hentered
    · exact h.idle r hold hseries hpending
    · obtain ⟨d, hd, hsame⟩ := hspares.entered (hseries ▸ hentered)
      obtain rfl := h.only d (ha.recorded d hd) hsame
      exact hspares.waits hd

theorem Alone.run (h : k.Alone draft) {fs : List Event}
    (hfair : k.Fair draft.request.series fs) (hspares : ∀ f ∈ fs, f.call.Spares draft) :
    (k.run fs).Alone draft := by
  induction fs generalizing k with
  | nil => exact h
  | cons f fs ih =>
    obtain ⟨hf, hfs⟩ := List.forall_mem_cons.1 hspares
    exact ih (h.after hfair.1 hf) hfair.2 hfs

/-- As long as its lease lasts, a request that was taken is recorded if its numbers can be. -/
theorem taken {es fs : List Event}
    (hfair : start.Fair draft.request.series (es ++ e :: fs))
    (hsub : (Store.empty.run es).submission? e = some draft)
    (hspares : ∀ f ∈ fs, f.call.Spares draft)
    (hfresh : ∀ r ∈ (Store.empty.run (es ++ e :: fs)).requests, r.trackingId ≠ trackingId) :
    Taken (Monitor.record (Store.empty.run (es ++ e :: fs)) draft (.ok trackingId)) draft.request
      trackingId (maxNumber < draft.request.last) := by
  have hstore : ∀ gs, (start.run gs).store = Store.empty.run gs := run_store start
  obtain ⟨hes, hallows, hfs⟩ := hfair.append
  have hsub' : (start.run es).store.submission? e = some draft := (hstore es).symm ▸ hsub
  have halone : (start.run (es ++ e :: fs)).Alone draft := by
    rw [run_append, run_cons]
    exact (Alone.of_submission (Sound.start.run hes) hallows hsub').run hfs hspares
  obtain ⟨token, -, -, hsubmitted⟩ := submission?_eq_some hsub
  refine (Monitor.record_taken hsubmitted.bounds hfresh).congr (or_iff_left ?_)
  rintro ⟨r, hr, hseries, hpending⟩
  exact halone.idle r ((hstore _).symm ▸ hr) hseries hpending

end Course

end FolioLedger
