import FolioLedger.Proofs.Ledger.Admission
import FolioLedger.Proofs.Replenish.Ingestion
import FolioLedger.Proofs.Replenish.Office
import FolioLedger.Proofs.Replenish.Outcome

/-!
# Ingestions that are taken up again

A poll registers the range of its request in one change of the store and resolves the request in
another, and it may stop between the two.  The next poll that sees the request accepted tries to
register the range again.  Its numbers are taken then, whatever became of the range (`Store.HasRange`),
so nothing is registered (`Polling.sparesLedger_of_hasRange`), and it is that very range which the
refusal names (`Store.HasRange.register_eq`).  The poll reads it back, finds its own tracking id, and
resolves the request with it.

Reading back is where this may fail.  A time in the leap second at the end of the calendar is stored but
cannot be read, and then the poll knows the range but does not get it.
-/

namespace FolioLedger

open Store Polling

/-! ## A range that is there -/

/-- A range was registered, whatever became of it and of its folios. -/
structure Store.HasRange (s : Store) (r : RangeRow) : Prop where
  coherent : Coherent s
  deed : ∃ q ∈ s.ranges, q.deed = r.deed

namespace Store.HasRange

variable {s : Store} {r : RangeRow} {limit : Nat} {faulty : Option Nat} {id : String} {now : Instant}
  {new : NewRange}

theorem after (h : s.HasRange r) (e : Event) : (s.after e).HasRange r := by
  obtain ⟨q, hq, hdeed⟩ := h.deed
  obtain ⟨q', hq', hdeed'⟩ := e.exists_of_deed s hq
  exact ⟨h.coherent.after e, q', hq', hdeed'.trans hdeed⟩

theorem run (h : s.HasRange r) (es : List Event) : (s.run es).HasRange r := by
  induction es generalizing s with
  | nil => exact h
  | cons e es ih => exact ih (h.after e)

/-- The range is found under its id, in some state. -/
theorem getRange (h : s.HasRange r) : ∃ q : RangeRow, q.deed = r.deed ∧ s.getRange r.id = q.toRange := by
  obtain ⟨q, hq, hdeed⟩ := h.deed
  have hfound := h.coherent.toAligned.range?_of_mem hq
  rw [(RangeRecord.of_deed hdeed).1] at hfound
  exact ⟨q, hdeed, by simp only [Store.getRange, hfound]⟩

/-- What stands in the way of a range of the same numbers is this one. -/
theorem obstacle? (h : s.HasRange r) (hscope : new.scope = r.scope) :
    s.obstacle? new.series new.first new.last = some r.id := by
  obtain ⟨q, hq, hdeed⟩ := h.deed
  obtain ⟨hid, hsame, -⟩ := RangeRecord.of_deed hdeed
  obtain ⟨hseries, hfirst, hlast⟩ := RangeRequest.mk.inj (hscope.trans hsame.symm)
  rw [hseries, hfirst, hlast, ← hid]
  exact h.coherent.toAligned.obstacle?_of_range hq

theorem register_eq (h : s.HasRange r) (hscope : new.scope = r.scope)
    (hcheck : new.check limit = .ok ()) (hlast : new.last ≤ maxNumber) :
    s.register limit faulty id now new =
      .error (.rangeOverlap new.series new.first new.last r.id) := by
  rw [register_eq_of_check hcheck hlast, checkNumbers, h.obstacle? hscope]
  rfl

theorem register_ne_ok (h : s.HasRange r) (hscope : new.scope = r.scope) (res : Range × Store) :
    s.register limit faulty id now new ≠ .ok res := by
  intro hregister
  obtain ⟨q, hq, hdeed⟩ := h.deed
  exact h.coherent.toAligned.scope_ne (register_eq_ok hregister).1 hq
    ((RangeRecord.of_deed hdeed).2.1.trans hscope.symm)

end Store.HasRange

/-! ## Nothing is registered -/

namespace Polling

variable {m : Monitor} {v : Verifier} {q : Polling} {s : Store} {r : RangeRow}

theorem hasRange_go (h : s.HasRange r) (step : PollStep) : (q.go m v s step).2.HasRange r := by
  rw [go_store]
  exact h.run _

theorem hasRange_follow (h : s.HasRange r) (hs : List Happening) :
    (follow m v (q, s) hs).2.HasRange r := by
  induction hs generalizing q s with
  | nil => exact h
  | cons happening hs ih =>
    cases happening with
    | own step => exact ih (hasRange_go h step)
    | other e => exact ih (h.after e)

/-- If the poll is about to register a range, it is one for what the request asks for. -/
def OnScope (q : Polling) : Prop :=
  ∀ new, q.stage = .registering new → new.scope = q.poll.request.scope

theorem OnScope.go (h : q.OnScope) (s : Store) (step : PollStep) : (q.go m v s step).1.OnScope := by
  intro new hnew
  rw [go_request]
  rcases go_stage (m := m) (v := v) q s step with hsame | ⟨_, _, a, _, -, -, hrange, hstage⟩ |
    ⟨_, _, -, hstage, -⟩ | hpassing
  · exact h new (hsame.symm.trans hnew)
  · rw [hnew] at hstage
    cases hstage
    exact (Poll.rangeOf_eq_ok hrange).2.1
  · rw [hnew] at hstage
    cases hstage
  · rw [hnew] at hpassing
    exact hpassing.elim

/-- No turn of a poll touches the ledger while the range of its request is there, whatever others do in
between. -/
theorem sparesLedger_of_hasRange (h : s.HasRange r) (hscope : r.scope = q.poll.request.scope) (hq : q.OnScope)
    (hs : List Happening) : SparesLedger m v (q, s) hs := by
  induction hs generalizing q s with
  | nil => trivial
  | cons happening hs ih =>
    cases happening with
    | own step =>
      refine ⟨?_, ih (hasRange_go h step)
        (hscope.trans (congrArg _ (go_request q s step).symm)) (hq.go s step)⟩
      rcases go_ledger (m := m) (v := v) q s step with
        hsame | ⟨new, _, _, _, _, hstage, hregister, -⟩
      · exact hsame
      · exact absurd hregister (h.register_ne_ok ((hq new hstage).trans hscope.symm) _)
    | other e => exact ih (h.after e) hscope hq

end Polling

/-! ## The range is found again -/

namespace Poll

variable {p : Poll} {m : Monitor} {s : Store} {r : RangeRow} {new : NewRange}

/-- A poll that comes to register a range which is there gets that range, if it is not too large by now
and can be read back.  Otherwise it has failed. -/
theorem register_of_hasRange (h : s.HasRange r) (hmine : r.trackingId = some p.request.trackingId)
    (hscope : new.scope = r.scope) (hlater : ¬ new.expiresAt ≤ new.authorizedAt) {limit : Nat}
    (hchecked : r.scope.check limit = .ok ()) (hlast : r.last ≤ maxNumber) (faulty : Option Nat)
    (id : String) (now : Instant) :
    (∃ range, (r.last - r.first + 1 ≤ m.maxRangeSize ∧ s.getRange r.id = .ok range) ∧
      p.register m faulty s id now new = (.accepting range, s)) ∨
    (¬ (r.last - r.first + 1 ≤ m.maxRangeSize ∧ ∃ range, s.getRange r.id = .ok range) ∧
      ∃ failure, p.register m faulty s id now new = (afterFailure failure, s)) := by
  obtain ⟨hseries, hpos, hle, -⟩ := RangeRequest.check_eq_ok_iff.1 hchecked
  have hsize : new.check m.maxRangeSize = .ok () ↔ r.last - r.first + 1 ≤ m.maxRangeSize := by
    rw [NewRange.check_eq_ok_iff, hscope, RangeRequest.check_eq_ok_iff]
    exact ⟨fun hall => hall.1.2.2.2, fun hbound => ⟨⟨hseries, hpos, hle, hbound⟩, hlater⟩⟩
  cases hcheck : new.check m.maxRangeSize with
  | error failure =>
    obtain ⟨fault, rfl⟩ := NewRange.check_eq_error hcheck
    refine .inr ⟨fun hall => ?_, .invalidRange fault, ?_⟩
    · rw [hsize.2 hall.1] at hcheck
      cases hcheck
    · have hfailed : s.register m.maxRangeSize faulty id now new = .error (.invalidRange fault) := by
        unfold Store.register
        rw [hcheck]
        rfl
      simp only [register, hfailed]
  | ok =>
    have hend : new.last ≤ maxNumber := (congrArg RangeRequest.last hscope).trans_le hlast
    have hoverlap : s.register m.maxRangeSize faulty id now new = _ := h.register_eq hscope hcheck hend
    obtain ⟨q, hdeed, hfound⟩ := h.getRange
    cases hread : s.getRange r.id with
    | error failure =>
      refine .inr ⟨fun hall => ?_, failure, ?_⟩
      · obtain ⟨range, hrange⟩ := hall.2
        cases hrange
      · simp only [register, hoverlap, hread]
    | ok range =>
      -- The range carries the tracking id of the request.
      have hown : range.trackingId = some p.request.trackingId := by
        rw [(RangeRecord.toRange_eq_ok (hfound.symm.trans hread)).2.2.1,
          (RangeRecord.of_deed hdeed).2.2.1, hmine]
      refine .inl ⟨range, ⟨hsize.1 hcheck, rfl⟩, ?_⟩
      simp only [register, hoverlap, hread, hown, if_true]

end Poll

/-! ## A request that is accepted -/

/-- A course of a poll in which its request is accepted: earlier ticks, the tick that asks, the turns by
which the artifact is fetched, the one that registers its range, and the one that resolves the request. -/
structure Acceptance where
  earlier : List Happening
  now : Instant
  later : Instant
  fetch : List Happening
  faulty : Option Nat
  id : String
  registered : Instant
  closing : List Happening
  resolved : Instant

namespace Acceptance

/-- Until the range is to be registered. -/
def opening (a : Acceptance) : List Happening :=
  a.earlier ++ .own (.tick a.now a.later) :: a.fetch

def course (a : Acceptance) : List Happening :=
  a.opening ++ .own (.register a.faulty a.id a.registered) :: a.closing

end Acceptance

/-- In a tick before the deadline the lock is renewed, the authority has accepted the request, and it
delivers an artifact for the same numbers that the verifier accepts.  Others may act at any time, but do
not resolve the request. -/
structure Poll.SeesAccepted (p : Poll) (m : Monitor) (v : Verifier) (s : Store) (a : Acceptance) :
    Prop where
  waiting : (follow m v (p.begun, s) a.earlier).1.stage = .waiting
  renewed : ∃ lease t, (follow m v (p.begun, s) a.earlier).2.renew a.now m.lockTtl
    (follow m v (p.begun, s) a.earlier).1.poll.lease = (.ok lease, t)
  inTime : ¬ p.deadline ≤ a.later
  fetches : ∃ location clock bytes artifact, a.fetch.filterMap Happening.own? =
      [.answered (.ok (.accepted location)), .delivered clock (.ok bytes)] ∧
    v.verify bytes p.request.series clock = .ok artifact ∧
    artifact.first = p.request.first ∧ artifact.last = p.request.last
  closes : a.closing.filterMap Happening.own? = [.accept a.resolved]
  undisturbed : Polling.Undisturbed m v p.request.trackingId (p.begun, s) a.course

/-- A range is there for the request of a poll, and the request is pending still. -/
structure Store.Interrupted (s : Store) (p : Poll) (r : RangeRow) (row : RequestRow) : Prop where
  range : r ∈ s.ranges
  mine : r.trackingId = some p.request.trackingId
  scope : r.scope = p.request.scope
  stored : s.request? p.request.trackingId = some row
  pending : row.state = .pending

/-- A poll ended with a range that was there before, and its request is accepted with it. -/
structure Polling.Resumed (q : Polling) (t : Store) (request : ReplenishmentRequest) (r : RangeRow)
    (resolved : Instant) : Prop where
  outcome : ∃ done range, q.stage = .ended (.ok (.ingested done range)) ∧
    done.trackingId = request.trackingId ∧ done.status = .accepted ∧ done.rangeId = some r.id ∧
    ∃ r' : RangeRow, r'.deed = r.deed ∧ r'.toRange = .ok range
  quiet : q.alerts = []
  stored : ∃ row, t.request? request.trackingId = some row ∧
    row.state = .accepted r.id resolved.toMillis

/-- What it takes to resolve a request with its range: the range is not too large by now, and it and the
times of the request can be read back. -/
structure Store.Resumable (s : Store) (limit : Nat) (r : RangeRow) (row : RequestRow)
    (resolved : Instant) : Prop where
  size : r.last - r.first + 1 ≤ limit
  range : ∃ range, s.getRange r.id = .ok range
  requested : ∃ t, Instant.ofMillis row.requestedAt = .ok t
  resolved : resolved.Readable

namespace Polling

variable {m : Monitor} {v : Verifier} {q : Polling} {s : Store} {hs : List Happening} {now : Instant}

/-- Nothing is seen of a poll that has not ended. -/
theorem follow_shows_none {p : Poll} {row : RequestRow}
    (hrow : s.request? p.request.trackingId = some row) (hpending : row.state = .pending)
    (hundisturbed : Undisturbed m v p.request.trackingId (p.begun, s) hs)
    (hstage : (follow m v (p.begun, s) hs).1.stage.outcome? = none) :
    (follow m v (p.begun, s) hs).1.Shows (follow m v (p.begun, s) hs).2 row p.request none := by
  have hshows := follow_shows rfl hpending hundisturbed (Poll.begun_shows hrow hpending)
  have hnone : ended? m v (p.begun, s) hs = none :=
    Option.map_eq_none_iff.1 (hshows.outcome.symm.trans hstage)
  rwa [hnone] at hshows

/-- A poll that has failed to ingest lets the turn to name a range pass. -/
theorem follow_of_afterFailure {failure : Failure} (hstage : q.stage = Poll.afterFailure failure)
    (hown : hs.filterMap Happening.own? = [.accept now]) : (follow m v (q, s) hs).1 = q := by
  have hgo : ∀ t, q.go m v t (.accept now) = (q, t) := by
    intro t
    obtain ⟨poll, stage, alerts⟩ := q
    rcases Poll.afterFailure_cases failure with hcase | ⟨hcase, -⟩ <;>
      (obtain rfl := hstage.trans hcase; rfl)
  obtain ⟨t, hs', -, hnone, -, hfollow⟩ :=
    follow_next (m := m) (v := v) (q := q) (s := s) (P := fun _ => True) hown (by simp) trivial
  obtain ⟨u, hothers, -⟩ :=
    follow_others (m := m) (v := v) (q := q) (s := t) (P := fun _ => True) hnone (by simp) trivial
  rw [hfollow, hgo, hothers]

/-- A poll that has a range to name does so at its next turn. -/
theorem ended?_of_accept {range : Range} (hstage : q.stage = .accepting range)
    {steps : List PollStep} (hown : hs.filterMap Happening.own? = .accept now :: steps) :
    ended? m v (q, s) hs = some (.ingested range now) := by
  induction hs generalizing s with
  | nil => cases hown
  | cons happening hs ih =>
    cases happening with
    | own step =>
      obtain rfl : step = .accept now := (List.cons.inj hown).1
      simp only [ended?, ending?, hstage]
      rfl
    | other e => exact ih hown

theorem eq_ended_of_outcome? {stage : PollStage} {outcome : Except Failure PollOutcome}
    (h : stage.outcome? = some outcome) : stage = .ended outcome := by
  cases stage <;> cases h
  rfl

/-- A poll that ended by naming a range has resumed with it if the request can be read back. -/
theorem resumed_iff_of_ingested {row : RequestRow} {request : ReplenishmentRequest} {r r' : RangeRow}
    {range : Range} (h : q.Shows s row request (some (.ingested range now)))
    (hid : row.trackingId = request.trackingId) (hdeed : r'.deed = r.deed)
    (hrange : r'.toRange = .ok range) : q.Resumed s request r now ↔
      (∃ t, Instant.ofMillis row.requestedAt = .ok t) ∧ now.Readable := by
  have hnamed : range.id = r.id :=
    (RangeRecord.toRange_eq_ok hrange).1.trans (RangeRecord.of_deed hdeed).1
  have houtcome : q.stage.outcome? = some ((RequestRow.toRequest
    { row with state := .accepted range.id now.toMillis }).map (.ingested · range)) := h.outcome
  rw [← RequestRow.toRequest_accepted_iff { row with state := .accepted range.id now.toMillis } rfl]
  constructor
  · intro hresumed
    obtain ⟨done, range', hstage, -⟩ := hresumed.outcome
    rw [hstage] at houtcome
    obtain ⟨done', hdone, -⟩ := map_eq_ok.1 (Option.some.inj houtcome).symm
    exact ⟨done', hdone⟩
  · rintro ⟨done, hdone⟩
    rw [hdone] at houtcome
    obtain ⟨hstatus, hrangeId⟩ := RequestRow.toRequest_state hdone
    refine ⟨⟨done, range, eq_ended_of_outcome? houtcome, ?_, hstatus, ?_, r', hdeed, hrange⟩, h.alerts,
      _, h.stored, congrArg (RequestState.accepted · _) hnamed⟩
    · exact (RequestRow.toRequest_eq_ok hdone).1.trans hid
    · exact hrangeId.trans (congrArg some hnamed)

end Polling

namespace Poll.SeesAccepted

variable {p : Poll} {m : Monitor} {v : Verifier} {s : Store} {a : Acceptance} {r : RangeRow}
  {row : RequestRow}

/-- The poll comes to register a range for what was asked for, and nothing is seen of it so far. -/
theorem opening (h : p.SeesAccepted m v s a) (hs : s.HasRange r)
    (hrow : s.request? p.request.trackingId = some row) (hpending : row.state = .pending) :
    ∃ p' artifact u, follow m v (p.begun, s) a.opening =
        (⟨p', .registering (p'.granted artifact), []⟩, u) ∧
      p'.request = p.request ∧ (p'.granted artifact).scope = p.request.scope ∧
      (∃ raw expected clock, v.Accepts raw expected clock artifact) ∧ u.HasRange r ∧
      Polling.Shows ⟨p', .registering (p'.granted artifact), []⟩ u row p.request none := by
  have hopening := (undisturbed_append.1 h.undisturbed).1
  have hearlier := (undisturbed_append.1 hopening).1
  obtain ⟨lease, t, hrenew⟩ := h.renewed
  obtain ⟨location, clock, bytes, artifact, hown, hverify, hbounds⟩ := h.fetches
  have hwaiting := h.waiting
  have hs₁ := hasRange_follow (m := m) (v := v) (q := p.begun) hs a.earlier
  have hshows₁ := follow_shows_none hrow hpending hearlier (by rw [hwaiting]; rfl)
  obtain ⟨hrequest, hdeadline⟩ := follow_poll (m := m) (v := v) p.begun s a.earlier
  have hcourse : follow m v (p.begun, s) a.opening =
    follow m v (follow m v (p.begun, s) a.earlier) (.own (.tick a.now a.later) :: a.fetch) :=
      follow_append ..
  generalize follow m v (p.begun, s) a.earlier = here at *
  -- The earlier ticks left the poll waiting, as at its beginning but for the lease.
  obtain ⟨⟨p₁, stage, alerts⟩, s₁⟩ := here
  obtain rfl : stage = .waiting := hwaiting
  obtain rfl : alerts = [] := hshows₁.alerts
  replace hrequest : p₁.request = p.request := hrequest
  have ht : t.HasRange r := by
    have hrenewed := hs₁.after ⟨a.now, .renew m.lockTtl p₁.lease⟩
    simp only [Store.after, hrenew] at hrenewed
    exact hrenewed
  rw [← hrequest] at hverify hbounds
  obtain ⟨u, hfollow, hu⟩ := Poll.follow_received (p := p₁)
    (P := fun t => t.HasRange r) hrenew (hdeadline ▸ h.inTime) hown hverify hbounds
    (fun e _ _ hkept => hkept.after e) ht
  have hend := hcourse.trans hfollow
  refine ⟨_, artifact, u, hend, hrequest, ?_, ⟨_, _, _, Verifier.verify_eq_ok hverify⟩, hu, ?_⟩
  · rw [← hrequest]
    simp only [NewRange.scope, Poll.granted, hbounds, ReplenishmentRequest.scope]
  · have := follow_shows_none hrow hpending hopening (by rw [hend]; rfl)
    rwa [hend] at this

/-- A range that is there is named again exactly if all that is needed can be read back. -/
theorem resumed_iff (h : p.SeesAccepted m v s a) (hs : Coherent s) (hinterrupted : s.Interrupted p r row)
    (hmonths : 1 ≤ v.validityMonths) {limit : Nat} (hchecked : r.scope.check limit = .ok ())
    (hlast : r.last ≤ maxNumber) :
    (follow m v (p.begun, s) a.course).1.Resumed (follow m v (p.begun, s) a.course).2 p.request r
        a.resolved ↔
      (follow m v (p.begun, s) a.opening).2.Resumable m.maxRangeSize r row a.resolved := by
  obtain ⟨hr, hmine, hscope, hrow, hpending⟩ := hinterrupted
  obtain ⟨p', artifact, u, hopening, hrequest, hsame, ⟨_, _, _, haccepts⟩, hu, hshows⟩ :=
    h.opening ⟨hs, r, hr, rfl⟩ hrow hpending
  have hclosing := (undisturbed_append.1 h.undisturbed).2
  rw [Acceptance.course, follow_append, hopening, follow_cons]
  rw [hopening] at hclosing
  have hlater := (Instant.later_of_addMonths? hmonths haccepts.expiresAt).2
  rw [← hrequest] at hmine
  rcases p'.register_of_hasRange (m := m) hu hmine (hsame.trans hscope.symm) hlater hchecked hlast
    a.faulty a.id a.registered with ⟨range, ⟨hsize, hread⟩, hregister⟩ | ⟨hnot, failure, hregister⟩
  · have hgo : (⟨p', .registering (p'.granted artifact), []⟩ : Polling).go m v u
        (.register a.faulty a.id a.registered) = (⟨p', .accepting range, []⟩, u) := by
      simp only [go, hregister]
    simp only [Polling.Undisturbed, hgo] at hclosing
    rw [meet, hgo]
    have hend := follow_shows (q := ⟨p', .accepting range, []⟩) hrequest hpending hclosing
      ⟨rfl, hshows.stored, rfl⟩
    rw [ended?_of_accept rfl h.closes] at hend
    obtain ⟨q, hdeed, hfound⟩ := hu.getRange
    have hid : row.trackingId = p.request.trackingId := (request?_eq_some hrow).2
    rw [resumed_iff_of_ingested hend hid hdeed (hfound.symm.trans hread)]
    constructor
    · rintro ⟨hrequested, hresolved⟩
      exact ⟨hsize, ⟨range, hread⟩, hrequested, hresolved⟩
    · intro hall
      exact ⟨hall.requested, hall.resolved⟩
  · have hgo : (⟨p', .registering (p'.granted artifact), []⟩ : Polling).go m v u
        (.register a.faulty a.id a.registered) = (⟨p', afterFailure failure, []⟩, u) := by
      simp only [go, hregister]
    refine iff_of_false (fun hresumed => ?_) fun hall => hnot ⟨hall.size, hall.range⟩
    obtain ⟨done, range, hstage, -⟩ := hresumed.outcome
    rw [meet, hgo, follow_of_afterFailure rfl h.closes] at hstage
    have houtcome := afterFailure_outcome? failure
    rw [show afterFailure failure = _ from hstage] at houtcome
    cases houtcome

end Poll.SeesAccepted

/-! ## Interrupted ingestions -/

/-- A request whose range was registered before its poll died, and warned about at an instant.  All folios
of the range were used, and a higher range was registered and used, too. -/
def interruptedRun (warnedAt : Instant) : List Event :=
  [⟨earlyAt 1, .recordRequest trialPoll.request⟩,
   ⟨earlyAt 2, .register 10 none "R1" ⟨⟨"A", "T"⟩, 1, 5, earlyAt 0, earlyAt 50, none, some "trk-1"⟩⟩,
   ⟨earlyAt 2, .markNearExpiry "R1" warnedAt⟩] ++
  List.replicate 5 ⟨earlyAt 3, .assign ⟨false, none⟩ ⟨"A", "T"⟩ none⟩ ++
  [⟨earlyAt 4, .register 10 none "R2" ⟨⟨"A", "T"⟩, 6, 10, earlyAt 0, earlyAt 50, none, none⟩⟩,
   ⟨earlyAt 5, .assign ⟨false, none⟩ ⟨"A", "T"⟩ none⟩,
   ⟨earlyAt 6, .acquire 20000 "token" "replenish:A:T"⟩]

def interruptedRange (warnedAt : Instant) : RangeRow where
  id := "R1"
  series := ⟨"A", "T"⟩
  first := 1
  last := 5
  authorizedAt := (earlyAt 0).toMillis
  expiresAt := (earlyAt 50).toMillis
  status := .exhausted
  artifactHash := none
  trackingId := some "trk-1"
  registeredAt := (earlyAt 2).toMillis
  nearExpiryAlertedAt := some warnedAt.toMillis

def interruptedRow : RequestRow :=
  ⟨"trk-1", ⟨"A", "T"⟩, 1, 5, (earlyAt 1).toMillis, .pending⟩

/-- The second tick sees the request accepted.  Meanwhile another folio is used. -/
def trialAcceptance : Acceptance where
  earlier := [.own (.tick (earlyAt 10) (earlyAt 10)), .own (.answered (.ok .pending))]
  now := earlyAt 15
  later := earlyAt 16
  fetch := [.own (.answered (.ok (.accepted "artifacts/1"))),
    .other ⟨earlyAt 16, .assign ⟨false, none⟩ ⟨"A", "T"⟩ none⟩,
    .own (.delivered .epoch (.ok trialBytes))]
  faulty := none
  id := "R3"
  registered := earlyAt 17
  closing := [.own (.accept (earlyAt 17))]
  resolved := earlyAt 17

theorem interrupted_trial {warnedAt : Instant} (h : warnedAt = earlyAt 2 ∨ warnedAt = lastLeap) :
    (empty.run (interruptedRun warnedAt)).Interrupted trialPoll (interruptedRange warnedAt)
        interruptedRow ∧
      trialPoll.SeesAccepted trialSettings.monitor trialVerifier
        (empty.run (interruptedRun warnedAt)) trialAcceptance := by
  have hfetches : ∃ location clock bytes artifact,
      trialAcceptance.fetch.filterMap Happening.own? =
        [.answered (.ok (.accepted location)), .delivered clock (.ok bytes)] ∧
      trialVerifier.verify bytes trialPoll.request.series clock = .ok artifact ∧
      artifact.first = trialPoll.request.first ∧ artifact.last = trialPoll.request.last :=
    ⟨"artifacts/1", .epoch, trialBytes, trialVerified, rfl, verify_trialBytes, rfl, rfl⟩
  rcases h with rfl | rfl <;>
    exact ⟨⟨by decide +kernel, rfl, rfl, by decide +kernel, rfl⟩,
      ⟨rfl, ⟨⟨"replenish:A:T", "token", 1, earlyAt 35⟩, _, Prod.ext (by decide +kernel) rfl⟩,
        by decide, hfetches, rfl, ⟨by decide +kernel, trivial⟩⟩⟩

end FolioLedger
