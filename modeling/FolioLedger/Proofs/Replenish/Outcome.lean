import FolioLedger.Proofs.Ledger.Numbering
import FolioLedger.Proofs.Replenish.Docket
import FolioLedger.Proofs.Replenish.Setbacks

/-!
# How a poll ends

A poll has seven ways to end, and each says what its caller gets, what the request is resolved as
and which alerts are given (`Ending`).  `Polling.ending?` says at which turn a poll ends and how.  As
long as nobody else resolves the request, these three agree after every happening of a poll, and
before it ends the request stays pending and nobody is alerted (`Polling.follow_shows`).  A poll
touches the ledger only to ingest (`Polling.follow_ledger`), and closes its request after a failure
exactly if the ingestion failed for good (`Polling.failsIn_iff`).
-/

namespace FolioLedger

open Store

/-- How a poll ends while nobody else resolves its request. -/
inductive Ending where
  | cancelled
  /-- The lock could not be renewed. -/
  | unlocked (failure : Failure)
  /-- The authority could not be asked, and will not be. -/
  | unanswered (failure : Failure)
  | timedOut (now : Instant)
  | rejected (reason : String) (since : Instant)
  | ingested (range : Range) (now : Instant)
  | ingestionFailed (failure : Failure) (now : Instant)

namespace Ending

/-- What the request is after the end. -/
def state : Ending → RequestState
  | cancelled | unlocked _ | unanswered _ => .pending
  | timedOut now => .timedOut now.toMillis
  | rejected reason since => .rejected reason since.toMillis
  | ingested range now => .accepted range.id now.toMillis
  | ingestionFailed failure now => .rejected failure.message now.toMillis

/-- The alerts that are given. -/
def alerts (request : ReplenishmentRequest) : Ending → List Alert
  | timedOut _ => [.replenishmentTimedOut request.series request.trackingId]
  | rejected reason _ => [.replenishmentRejected request.series request.trackingId reason]
  | ingestionFailed failure _ =>
    [.ingestionFailed request.series request.trackingId failure.message]
  | cancelled | unlocked _ | unanswered _ | ingested .. => []

/-- What the caller gets. -/
def outcome (row : RequestRow) (e : Ending) : Except Failure PollOutcome :=
  match e with
  | cancelled => .ok .cancelled
  | unlocked failure | unanswered failure | ingestionFailed failure _ => .error failure
  | timedOut _ => .error (.authorityTimeout row.trackingId)
  | rejected reason _ => .error (.authorityRejected row.trackingId reason)
  | ingested range _ => ({ row with state := e.state }.toRequest).map (.ingested · range)

/-- A poll ends this way for a reason: its time is over, or no later attempt will do better. -/
def Due (p : Poll) : Ending → Prop
  | timedOut now => p.deadline ≤ now
  | unanswered failure => failure.isTransient = false
  | ingestionFailed failure _ => Poll.mayRetry failure = false
  | _ => True

theorem Due.congr {p p' : Poll} {e : Ending} (h : e.Due p) (hdeadline : p.deadline = p'.deadline) :
    e.Due p' := by
  cases e <;> simp_all [Due]

end Ending

/-- What is seen of a poll agrees with its end, or with its not having ended. -/
structure Agrees (row : RequestRow) (request : ReplenishmentRequest) (e : Option Ending)
    (outcome : Option (Except Failure PollOutcome)) (alerts : List Alert) (t : Store) : Prop where
  outcome : outcome = e.map (·.outcome row)
  stored : t.request? request.trackingId =
    some { row with state := (e.map (·.state)).getD .pending }
  alerts : alerts = (e.map (·.alerts request)).getD []

/-! ## Stages that go on -/

@[simp] theorem Poll.afterFailure_outcome? (failure : Failure) :
    (Poll.afterFailure failure).outcome? = none := by
  rcases Poll.afterFailure_cases failure with h | ⟨h, -⟩ <;> rw [h] <;> rfl

theorem Poll.delivered_outcome? (p : Poll) (v : Verifier) (now : Instant)
    (answer : Except Failure ByteArray) : (p.delivered v now answer).outcome? = none := by
  rcases p.delivered_cases v now answer with ⟨_, _, _, -, -, -, h⟩ | ⟨failure, h⟩ <;> rw [h]
  · rfl
  · exact afterFailure_outcome? failure

theorem Poll.register_outcome? (p : Poll) (s : Store) (m : Monitor) (faulty : Option Nat)
    (id : String) (now : Instant) (new : NewRange) :
    (p.register m faulty s id now new).1.outcome? = none := by
  rcases p.register_cases s m faulty id now new with ⟨_, _, -, h⟩ | ⟨_, _, -, -, h⟩ | ⟨failure, h⟩ <;>
    rw [h]
  · rfl
  · rfl
  · exact afterFailure_outcome? failure

namespace Polling

variable (m : Monitor) (v : Verifier)

/-- How a turn ends a poll whose request is pending, if it does. -/
def ending? (q : Polling) (s : Store) (step : PollStep) : Option Ending :=
  match q.stage, step with
  | .waiting, .cancel => some .cancelled
  | .waiting, .tick now later =>
    match (s.renew now m.lockTtl q.poll.lease).1 with
    | .error failure => some (.unlocked failure)
    | .ok _ => if q.poll.deadline ≤ later then some (.timedOut later) else none
  | .asking _, .answered (.error failure) =>
    if failure.isTransient then none else some (.unanswered failure)
  | .asking since, .answered (.ok (.rejected reason)) => some (.rejected reason since)
  | .accepting range, .accept now => some (.ingested range now)
  | .rejecting failure, .reject now => some (.ingestionFailed failure now)
  | _, _ => none

/-- How a poll ended in the course of some happenings, if it did. -/
def ended? (here : Polling × Store) : List Happening → Option Ending
  | [] => none
  | .own step :: hs =>
    (here.1.ending? m here.2 step).or (ended? (here.1.go m v here.2 step) hs)
  | .other e :: hs => ended? (here.1, here.2.after e) hs

/-- Nobody else resolves the request. -/
def Undisturbed (trackingId : String) (here : Polling × Store) : List Happening → Prop
  | [] => True
  | .own step :: hs => Undisturbed trackingId (here.1.go m v here.2 step) hs
  | .other e :: hs => (here.2.after e).request? trackingId = here.2.request? trackingId ∧
    Undisturbed trackingId (here.1, here.2.after e) hs

/-- No turn of the poll touches a range or a folio. -/
def SparesLedger (here : Polling × Store) : List Happening → Prop
  | [] => True
  | .own step :: hs => SameLedger here.2 (here.1.go m v here.2 step).2 ∧
    SparesLedger (here.1.go m v here.2 step) hs
  | .other e :: hs => SparesLedger (here.1, here.2.after e) hs

variable {m v} {q : Polling} {s : Store} {row : RequestRow} {request : ReplenishmentRequest}

/-! ## One turn -/

/-- What is seen of a poll under way. -/
abbrev Shows (q : Polling) (s : Store) (row : RequestRow) (request : ReplenishmentRequest)
    (e : Option Ending) : Prop :=
  Agrees row request e q.stage.outcome? q.alerts s

/-- A turn ends the poll as `ending?` says, and otherwise changes nothing that is seen. -/
theorem go_shows (hq : q.poll.request = request) (hpending : row.state = .pending)
    (h : q.Shows s row request none) (step : PollStep) :
    (q.go m v s step).1.Shows (q.go m v s step).2 row request (q.ending? m s step) := by
  obtain ⟨poll, stage, alerts⟩ := q
  obtain rfl : poll.request = request := hq
  obtain ⟨hstage, hrow, halerts⟩ := h
  obtain rfl : alerts = [] := halerts
  have hrow : s.request? poll.request.trackingId = some row := by
    rw [hrow]
    cases row
    cases hpending
    rfl
  have hid : row.trackingId = poll.request.trackingId := (request?_eq_some hrow).2
  have hnone : ∀ {t : Store}, t.requests = s.requests → t.request? poll.request.trackingId =
      some { row with state := .pending } := fun hsame => by
    rw [request?_congr hsame, hrow, ← hpending]
  have hstill : Agrees row poll.request none none [] s := ⟨rfl, hnone rfl, rfl⟩
  cases stage <;> cases step <;> try exact ⟨hstage, hnone rfl, rfl⟩
  case waiting.cancel => exact ⟨rfl, hnone rfl, rfl⟩
  case waiting.tick now later =>
    have hsame := s.renew_requests now m.lockTtl poll.lease
    simp only [go, ending?, Poll.tick]
    cases hrenew : s.renew now m.lockTtl poll.lease with
    | mk res t =>
    rw [hrenew] at hsame
    cases res with
    | error failure => exact ⟨rfl, hnone hsame, rfl⟩
    | ok lease =>
      by_cases hover : poll.deadline ≤ later
      · obtain ⟨u, hu, hfound⟩ := resolve_of_pending
          ((request?_congr hsame _).trans hrow) hpending (.timedOut later.toMillis)
        simp only [hover, if_true, markTimedOut, hu]
        exact ⟨by simp [PollStage.outcome?, Poll.finish, Ending.outcome, hid], hfound, rfl⟩
      · simp only [hover, if_false]
        exact ⟨rfl, hnone hsame, rfl⟩
  case asking.answered since answer =>
    simp only [go, Poll.answered]
    cases answer with
    | error failure =>
      simp only [ending?]
      by_cases htransient : failure.isTransient
      · simp only [htransient, if_true]
        exact hstill
      · simp only [htransient]
        exact ⟨rfl, hnone rfl, rfl⟩
    | ok status =>
      cases status with
      | pending => exact hstill
      | accepted location => exact hstill
      | rejected reason =>
        obtain ⟨u, hu, hfound⟩ :=
          resolve_of_pending hrow hpending (.rejected reason since.toMillis)
        simp only [markRejected, hu]
        exact ⟨by simp [ending?, PollStage.outcome?, Poll.finish, Ending.outcome, hid], hfound, rfl⟩
  case fetching.delivered location now answer =>
    exact ⟨poll.delivered_outcome? v now answer, hnone rfl, rfl⟩
  case registering.register new faulty id now =>
    have hsame := poll.register_requests s m faulty id now new
    exact ⟨poll.register_outcome? s m faulty id now new, hnone hsame, rfl⟩
  case accepting.accept range now =>
    obtain ⟨u, hu, hfound⟩ :=
      resolve_of_pending hrow hpending (.accepted range.id now.toMillis)
    simp only [go, Poll.accept, markAccepted, hu, getRequest, hfound]
    -- The request is accepted, whether or not the medium can give it back.
    refine ⟨?_, ?_, ?_⟩
    · simp only [ending?, Option.map_some, Ending.outcome, Ending.state]
      cases (RequestRow.toRequest { row with state := .accepted range.id now.toMillis }) <;> rfl
    · cases (RequestRow.toRequest { row with state := .accepted range.id now.toMillis }) <;>
        exact hfound
    · rfl
  case rejecting.reject failure now =>
    obtain ⟨u, hu, hfound⟩ :=
      resolve_of_pending hrow hpending (.rejected failure.message now.toMillis)
    simp only [go, Poll.reject, markRejected, hu]
    exact ⟨rfl, hfound, rfl⟩

/-! ## Runs -/

/-- A request is closed after a failure only if no later tick mends it. -/
def Fatal : PollStage → Prop
  | .rejecting failure => Poll.mayRetry failure = false
  | _ => True

theorem Fatal.go (h : Fatal q.stage) (step : PollStep) : Fatal (q.go m v s step).1.stage := by
  rcases go_stage (m := m) (v := v) q s step with hsame | ⟨_, _, _, _, -, -, -, hstage⟩ |
    ⟨_, _, -, hstage, -⟩ | hpassing
  · rw [hsame]
    exact h
  · rw [hstage]
    trivial
  · rw [hstage]
    trivial
  · revert hpassing
    cases (q.go m v s step).1.stage <;> intro hpassing <;> first | exact hpassing | trivial

/-- A turn ends a poll for a reason. -/
theorem ending?_due (h : Fatal q.stage) {step : PollStep} {e : Ending}
    (he : q.ending? m s step = some e) : e.Due q.poll := by
  obtain ⟨poll, stage, alerts⟩ := q
  cases stage <;> cases step <;> try cases he
  case waiting.tick now later =>
    simp only [ending?] at he
    split at he
    · cases he
      trivial
    · split at he
      · next hover =>
        cases he
        exact hover
      · cases he
  case waiting.cancel => trivial
  case asking.answered since answer =>
    cases answer with
    | error failure =>
      simp only [ending?] at he
      split at he
      · cases he
      · next hnever =>
        cases he
        simpa [Ending.Due] using hnever
    | ok status =>
      cases status <;> cases he
      trivial
  case accepting.accept => trivial
  case rejecting.reject => exact h

/-! ## Failed ingestions -/

theorem ending?_of_fails {step : PollStep} {failure : Failure} (h : Fails m v q s step failure) :
    q.ending? m s step = none := by
  rcases h.stage_step with ⟨_, _, _, hstage, rfl⟩ | ⟨_, _, _, _, hstage, rfl⟩ <;>
    simp only [ending?, hstage]

theorem ending?_of_rejecting {step : PollStep} {failure : Failure} {e : Ending}
    (hstage : q.stage = .rejecting failure) (he : q.ending? m s step = some e) :
    ∃ now, e = .ingestionFailed failure now := by
  cases step <;> simp only [ending?, hstage] at he <;> cases he
  exact ⟨_, rfl⟩

theorem ending?_eq_ingestionFailed_iff {step : PollStep} {failure : Failure} {now : Instant} :
    q.ending? m s step = some (.ingestionFailed failure now) ↔
      q.stage = .rejecting failure ∧ step = .reject now := by
  constructor
  · intro h
    obtain ⟨poll, stage, alerts⟩ := q
    cases stage <;> cases step <;> try cases h
    case waiting.tick now later =>
      simp only [ending?] at h
      split at h
      · cases h
      · split at h <;> cases h
    case asking.answered since answer =>
      cases answer with
      | error failure =>
        simp only [ending?] at h
        split at h <;> cases h
      | ok status => cases status <;> cases h
    case rejecting.reject.refl => exact ⟨rfl, rfl⟩
  · rintro ⟨hstage, rfl⟩
    simp only [ending?, hstage]

/-- A turn that neither ends a poll nor brings it on changes nothing. -/
theorem bringsTo_or_eq (q : Polling) (s : Store) (step : PollStep) :
    (∃ e, q.ending? m s step = some e) ∨ (∃ stage, BringsTo m v q s step stage) ∨
      q.go m v s step = (q, s) := by
  obtain ⟨poll, stage, alerts⟩ := q
  cases stage <;> cases step <;> try exact .inr (.inr rfl)
  case waiting.tick now later =>
    cases hrenew : s.renew now m.lockTtl poll.lease with
    | mk res t =>
    cases res with
    | error failure => exact .inl ⟨.unlocked failure, by simp only [ending?, hrenew]⟩
    | ok lease =>
      by_cases hover : poll.deadline ≤ later
      · exact .inl ⟨.timedOut later, by simp only [ending?, hrenew, hover, if_true]⟩
      · exact .inr (.inl ⟨_, .asks rfl hrenew hover⟩)
  case waiting.cancel => exact .inl ⟨.cancelled, rfl⟩
  case asking.answered since answer =>
    cases answer with
    | error failure =>
      by_cases htransient : failure.isTransient
      · exact .inr (.inl ⟨_, .unheard rfl htransient⟩)
      · exact .inl ⟨.unanswered failure, by simp only [ending?, htransient]; rfl⟩
    | ok status =>
      cases status with
      | pending => exact .inr (.inl ⟨_, .undecided rfl⟩)
      | accepted location => exact .inr (.inl ⟨_, .accepted rfl⟩)
      | rejected reason => exact .inl ⟨.rejected reason since, rfl⟩
  case fetching.delivered location now answer =>
    refine .inr (.inl ?_)
    cases answer with
    | error failure => exact (Fails.unavailable rfl).exists_bringsTo
    | ok bytes =>
      cases hverify : v.verify bytes poll.request.series now with
      | error failure => exact (Fails.unverified rfl hverify).exists_bringsTo
      | ok a =>
        by_cases hbounds : a.first = poll.request.first ∧ a.last = poll.request.last
        · exact ⟨_, .verified rfl hverify hbounds⟩
        · exact (Fails.otherBounds rfl hverify hbounds).exists_bringsTo
  case registering.register new faulty id now =>
    refine .inr (.inl ?_)
    cases hregister : s.register m.maxRangeSize faulty id now new with
    | ok res => exact ⟨_, .registered rfl hregister⟩
    | error failure =>
      by_cases hoverlap : ∃ series first last existing, failure = .rangeOverlap series first last existing
      · obtain ⟨series, first, last, existing, rfl⟩ := hoverlap
        cases hread : s.getRange existing with
        | error failure => exact (Fails.illegible rfl hregister hread).exists_bringsTo
        | ok range =>
          by_cases hown : range.trackingId = some poll.request.trackingId
          · exact ⟨_, .found rfl hregister hread hown⟩
          · exact (Fails.taken rfl hregister hread hown).exists_bringsTo
      · push Not at hoverlap
        exact (Fails.refused rfl hregister hoverlap).exists_bringsTo
  case accepting.accept range now => exact .inl ⟨.ingested range now, rfl⟩
  case rejecting.reject failure now => exact .inl ⟨.ingestionFailed failure now, rfl⟩

/-- A turn that does not end the poll makes it close its request exactly if it fails for good. -/
theorem go_rejecting_iff {step : PollStep} {failure : Failure} (h : q.ending? m s step = none)
    (hlast : ¬ failure.MayPass) : (q.go m v s step).1.stage = .rejecting failure ↔
      q.stage = .rejecting failure ∨ Fails m v q s step failure := by
  rcases bringsTo_or_eq (m := m) (v := v) q s step with ⟨e, he⟩ | ⟨stage, hbrings⟩ | hsame
  · rw [h] at he
    cases he
  · rw [go_of_bringsTo hbrings, or_iff_right (hbrings.stage_ne failure)]
    constructor
    · rintro rfl
      cases hbrings with
      | failed hfails => exact hfails
    · intro hfails
      rw [← go_of_bringsTo hbrings]
      exact go_of_bringsTo (.failed hfails hlast)
  · rw [hsame, iff_self_or]
    intro hfails
    have hgo := go_of_bringsTo (.failed hfails hlast)
    rwa [hsame] at hgo

/-! ## Whole polls -/

theorem hasEnded_of_outcome? {stage : PollStage} {outcome : Except Failure PollOutcome}
    (h : stage.outcome? = some outcome) : stage.HasEnded := by
  cases stage <;> trivial

theorem shows_of_ended {hs : List Happening} (h : q.stage.HasEnded)
    (hundisturbed : Undisturbed m v request.trackingId (q, s) hs) {e : Option Ending}
    (hshows : q.Shows s row request e) :
    (follow m v (q, s) hs).1.Shows (follow m v (q, s) hs).2 row request e := by
  induction hs generalizing s with
  | nil => exact hshows
  | cons happening hs ih =>
    cases happening with
    | own step =>
      simp only [Undisturbed, go_of_ended h] at hundisturbed
      simp only [follow_cons, meet, go_of_ended h]
      exact ih hundisturbed hshows
    | other event =>
      obtain ⟨hsame, hrest⟩ := hundisturbed
      exact ih hrest ⟨hshows.outcome, hsame.trans hshows.stored, hshows.alerts⟩

theorem follow_shows {hs : List Happening} (hq : q.poll.request = request)
    (hpending : row.state = .pending) (hundisturbed : Undisturbed m v request.trackingId (q, s) hs)
    (hshows : q.Shows s row request none) :
    (follow m v (q, s) hs).1.Shows (follow m v (q, s) hs).2 row request
      (ended? m v (q, s) hs) := by
  induction hs generalizing q s with
  | nil => exact hshows
  | cons happening hs ih =>
    cases happening with
    | own step =>
      have hgo := go_shows (m := m) (v := v) hq hpending hshows step
      have hrequest := (go_request (m := m) (v := v) q s step).trans hq
      simp only [follow_cons, meet, ended?]
      cases hend : q.ending? m s step with
      | none =>
        rw [hend] at hgo
        exact ih hrequest hundisturbed hgo
      | some e =>
        rw [hend] at hgo
        exact shows_of_ended (hasEnded_of_outcome? hgo.outcome) hundisturbed hgo
    | other event =>
      obtain ⟨hsame, hrest⟩ := hundisturbed
      exact ih hq hrest ⟨hshows.outcome, hsame.trans hshows.stored, hshows.alerts⟩

theorem ended?_due {hs : List Happening} (h : Fatal q.stage) {e : Ending}
    (he : ended? m v (q, s) hs = some e) : e.Due q.poll := by
  induction hs generalizing q s with
  | nil => cases he
  | cons happening hs ih =>
    cases happening with
    | own step =>
      rcases Option.or_eq_some_iff.1 he with hnow | ⟨-, hlater⟩
      · exact ending?_due h hnow
      · exact (ih (h.go step) hlater).congr (go_deadline q s step)
    | other event => exact ih h he

/-- A failure that does not pass makes the poll close its request, and then ends it, and nothing else
does. -/
theorem failsIn_iff {hs : List Happening} (hq : q.poll.request = request)
    (hpending : row.state = .pending) (hundisturbed : Undisturbed m v request.trackingId (q, s) hs)
    (hshows : q.Shows s row request none) {failure : Failure} (hlast : ¬ failure.MayPass) :
    q.stage = .rejecting failure ∨ FailsIn m v failure (q, s) hs ↔
      (follow m v (q, s) hs).1.stage = .rejecting failure ∨
        ∃ now, ended? m v (q, s) hs = some (.ingestionFailed failure now) := by
  induction hs generalizing q s with
  | nil => simp [FailsIn, ended?]
  | cons happening hs ih =>
    cases happening with
    | own step =>
      have hgo := go_shows (m := m) (v := v) hq hpending hshows step
      simp only [FailsIn, follow_cons, meet, ended?]
      cases hend : q.ending? m s step with
      | none =>
        rw [hend] at hgo
        rw [← or_assoc, ← go_rejecting_iff hend hlast]
        exact ih ((go_request q s step).trans hq) hundisturbed hgo
      | some e =>
        rw [hend] at hgo
        have hended := hasEnded_of_outcome? hgo.outcome
        have hstage : (q.go m v s step).1.stage ≠ .rejecting failure := fun h => by
          rw [h] at hended
          exact hended
        have hnever : ¬ Fails m v q s step failure := fun h => by
          rw [ending?_of_fails h] at hend
          cases hend
        rw [follow_of_ended hended, or_iff_right hstage,
          or_iff_left (not_or.2 ⟨hnever, not_failsIn_of_ended hended hs⟩), Option.some_or]
        constructor
        · intro hrejecting
          obtain ⟨now, rfl⟩ := ending?_of_rejecting hrejecting hend
          exact ⟨now, rfl⟩
        · rintro ⟨now, hnow⟩
          rw [Option.some.inj hnow] at hend
          exact (ending?_eq_ingestionFailed_iff.1 hend).1
    | other event =>
      obtain ⟨hsame, hrest⟩ := hundisturbed
      exact ih hq hrest ⟨hshows.outcome, hsame.trans hshows.stored, hshows.alerts⟩

/-! ## The ledger -/

/-- A turn touches the ledger only to register a range, and then the poll is to name it. -/
theorem go_ledger (q : Polling) (s : Store) (step : PollStep) :
    SameLedger s (q.go m v s step).2 ∨
      ∃ new faulty id now range, q.stage = .registering new ∧
        s.register m.maxRangeSize faulty id now new = .ok (range, (q.go m v s step).2) ∧
        (q.go m v s step).1.stage = .accepting range := by
  obtain ⟨poll, stage, alerts⟩ := q
  cases stage <;> cases step <;> try exact .inl (.refl s)
  case waiting.tick now later => exact .inl (poll.tick_sameLedger s m now later)
  case waiting.cancel => exact .inl (poll.cancel_sameLedger s)
  case asking.answered since answer => exact .inl (poll.answered_sameLedger s since answer)
  case registering.register new faulty id now =>
    simp only [go]
    rcases poll.register_cases s m faulty id now new with
      ⟨range, t, hregister, h⟩ | ⟨_, _, -, -, h⟩ | ⟨_, h⟩ <;> rw [h]
    · exact .inr ⟨new, faulty, id, now, range, rfl, hregister, rfl⟩
    · exact .inl (.refl s)
    · exact .inl (.refl s)
  case accepting.accept range now => exact .inl (poll.accept_sameLedger s now range)
  case rejecting.reject failure now => exact .inl (poll.reject_sameLedger s now failure)

theorem ended?_of_ended (h : q.stage.HasEnded) (hs : List Happening) :
    ended? m v (q, s) hs = none ∧ SparesLedger m v (q, s) hs := by
  induction hs generalizing s with
  | nil => exact ⟨rfl, trivial⟩
  | cons happening hs ih =>
    cases happening with
    | own step =>
      simp only [ended?, SparesLedger, go_of_ended h]
      obtain ⟨hend, hspares⟩ := ih (s := s)
      refine ⟨?_, .refl s, hspares⟩
      rw [hend, Option.or_none]
      obtain ⟨poll, stage, alerts⟩ := q
      cases stage <;> first | exact h.elim | cases step <;> rfl
    | other event => exact ih

/-- Once its range is registered, a poll ends by naming it, if it goes on at all. -/
theorem ended?_of_accepting {range : Range} (h : q.stage = .accepting range)
    (hs : List Happening) :
    (follow m v (q, s) hs).1.stage = .accepting range ∨
      ∃ now, ended? m v (q, s) hs = some (.ingested range now) := by
  induction hs generalizing q s with
  | nil => exact .inl h
  | cons happening hs ih =>
    cases happening with
    | own step =>
      simp only [follow_cons, meet, ended?]
      obtain ⟨poll, stage, alerts⟩ := q
      obtain rfl : stage = .accepting range := h
      cases step <;> try exact ih rfl
      exact .inr ⟨_, rfl⟩
    | other event => exact ih h

/-- A poll touches the ledger only to ingest. -/
theorem follow_ledger {hs : List Happening} (hq : q.poll.request = request)
    (hpending : row.state = .pending) (hundisturbed : Undisturbed m v request.trackingId (q, s) hs)
    (hshows : q.Shows s row request none) :
    SparesLedger m v (q, s) hs ∨
      (∃ range, (follow m v (q, s) hs).1.stage = .accepting range) ∨
      ∃ range now, ended? m v (q, s) hs = some (.ingested range now) := by
  induction hs generalizing q s with
  | nil => exact .inl trivial
  | cons happening hs ih =>
    cases happening with
    | own step =>
      have hgo := go_shows (m := m) (v := v) hq hpending hshows step
      simp only [SparesLedger, follow_cons, meet, ended?]
      cases hend : q.ending? m s step with
      | none =>
        rw [hend] at hgo
        rcases go_ledger (m := m) (v := v) q s step with
          hsame | ⟨_, _, _, _, range, -, -, hstage⟩
        · exact (ih ((go_request q s step).trans hq) hundisturbed hgo).imp_left fun h => ⟨hsame, h⟩
        · refine .inr ((ended?_of_accepting hstage hs).imp (fun h => ⟨range, h⟩) fun h => ?_)
          obtain ⟨now, h⟩ := h
          exact ⟨range, now, h⟩
      | some e =>
        rw [hend] at hgo
        have hended := hasEnded_of_outcome? hgo.outcome
        rcases go_ledger (m := m) (v := v) q s step with
          hsame | ⟨_, _, _, _, range, -, -, hstage⟩
        · exact .inl ⟨hsame, (ended?_of_ended hended hs).2⟩
        · rw [hstage] at hended
          exact hended.elim
    | other event =>
      obtain ⟨hsame, hrest⟩ := hundisturbed
      exact ih hq hrest ⟨hshows.outcome, hsame.trans hshows.stored, hshows.alerts⟩

/-! ## Polls that nobody interrupts -/

theorem undisturbed_append {trackingId : String} {here : Polling × Store} {hs hs' : List Happening} :
    Undisturbed m v trackingId here (hs ++ hs') ↔
      Undisturbed m v trackingId here hs ∧ Undisturbed m v trackingId (follow m v here hs) hs' := by
  induction hs generalizing here with
  | nil => exact ⟨fun h => ⟨trivial, h⟩, And.right⟩
  | cons happening hs ih =>
    cases happening with
    | own step => exact ih
    | other event => exact (and_congr_right fun _ => ih).trans and_assoc.symm

theorem undisturbed_own (trackingId : String) (here : Polling × Store) (steps : List PollStep) :
    Undisturbed m v trackingId here (steps.map .own) := by
  induction steps generalizing here with
  | nil => trivial
  | cons step steps ih => exact ih _

theorem sameLedger_of_spares {here : Polling × Store} {steps : List PollStep}
    (h : SparesLedger m v here (steps.map .own)) :
    SameLedger here.2 (follow m v here (steps.map .own)).2 := by
  induction steps generalizing here with
  | nil => exact .refl here.2
  | cons step steps ih => exact h.1.trans (ih h.2)

end Polling

open Polling

variable {row : RequestRow}

theorem Poll.begun_shows {p : Poll} {s : Store}
    (hrow : s.request? p.request.trackingId = some row) (hpending : row.state = .pending) :
    p.begun.Shows s row p.request none := by
  refine ⟨rfl, ?_, rfl⟩
  rw [hrow]
  cases row
  cases hpending
  rfl

/-- What a poll of a pending request gives and leaves behind when nobody interrupts it: the turns that
it took until it came to rest, and how they ended it. -/
structure Closes (m : Monitor) (v : Verifier) (row : RequestRow) (p : Poll) (s : Store)
    (steps : List PollStep) (p' : Poll) (outcome : Option (Except Failure PollOutcome))
    (alerts : List Alert) (t : Store) : Prop where
  leads : ∃ stage, follow m v (p.begun, s) (steps.map .own) = (⟨p', stage, alerts⟩, t) ∧
    stage.AtRest ∧ outcome = stage.outcome?
  agrees : Agrees row p.request (ended? m v (p.begun, s) (steps.map .own)) outcome alerts t
  due : ∀ e ∈ ended? m v (p.begun, s) (steps.map .own), e.Due p
  ledger : (∀ range now, ended? m v (p.begun, s) (steps.map .own) ≠ some (.ingested range now)) →
    SameLedger s t
  fails : ∀ failure : Failure, ¬ failure.MayPass →
    (FailsIn m v failure (p.begun, s) (steps.map .own) ↔
      ∃ now, ended? m v (p.begun, s) (steps.map .own) = some (.ingestionFailed failure now))

namespace Closes

variable {m : Monitor} {v : Verifier} {p p' p'' : Poll} {s t u : Store} {steps steps' : List PollStep}
  {outcome : Option (Except Failure PollOutcome)} {alerts alerts' : List Alert}

theorem request (h : Closes m v row p s steps p' outcome alerts t) : p'.request = p.request := by
  obtain ⟨stage, hleads, -, -⟩ := h.leads
  have hkept := follow_poll (m := m) (v := v) p.begun s (steps.map .own)
  rw [hleads] at hkept
  exact hkept.1

/-- Turns that lead to rest close a poll. -/
theorem of_follow {stage : PollStage} (hrow : s.request? p.request.trackingId = some row)
    (hpending : row.state = .pending)
    (hfollow : follow m v (p.begun, s) (steps.map .own) = (⟨p', stage, alerts⟩, t))
    (hrest : stage.AtRest) : Closes m v row p s steps p' stage.outcome? alerts t := by
  have hbegun := Poll.begun_shows hrow hpending
  have hundisturbed := undisturbed_own (m := m) (v := v) p.request.trackingId (p.begun, s) steps
  have hshows := follow_shows rfl hpending hundisturbed hbegun
  have hledger := follow_ledger rfl hpending hundisturbed hbegun
  rw [hfollow] at hshows hledger
  refine ⟨⟨stage, hfollow, hrest, rfl⟩, hshows, fun e he => ended?_due (q := p.begun) trivial he,
    fun hnever => ?_, fun failure hlast => ?_⟩
  · rcases hledger with hspares | ⟨range, hstage⟩ | ⟨range, now, hend⟩
    · have hsame := sameLedger_of_spares hspares
      rw [hfollow] at hsame
      exact hsame
    · rw [show stage = .accepting range from hstage] at hrest
      exact hrest.elim
    · exact absurd hend (hnever range now)
  · have hfails := failsIn_iff rfl hpending hundisturbed hbegun hlast
    rw [hfollow] at hfails
    have hstage : stage ≠ .rejecting failure := by
      rintro rfl
      exact hrest
    have hwaiting : p.begun.stage ≠ .rejecting failure := nofun
    rwa [or_iff_right hstage, or_iff_right hwaiting] at hfails

/-- A poll that has not ended goes on as if it began. -/
theorem trans (hrow : s.request? p.request.trackingId = some row) (hpending : row.state = .pending)
    (h : Closes m v row p s steps p' none alerts t)
    (h' : Closes m v row p' t steps' p'' outcome alerts' u) :
    Closes m v row p s (steps ++ steps') p'' outcome alerts' u := by
  obtain ⟨stage, hleads, hrest, houtcome⟩ := h.leads
  obtain ⟨stage', hleads', hrest', rfl⟩ := h'.leads
  have hnone : ended? m v (p.begun, s) (steps.map .own) = none :=
    Option.map_eq_none_iff.1 h.agrees.outcome.symm
  obtain rfl : alerts = [] := by
    have := h.agrees.alerts
    rwa [hnone] at this
  obtain rfl : stage = .waiting := by
    cases stage <;> first | rfl | exact hrest.elim | cases houtcome
  refine of_follow hrow hpending ?_ hrest'
  rw [List.map_append, follow_append, hleads]
  exact hleads'

end Closes

namespace Workshop

variable {M : Type → Type} [Monad M] [LawfulMonad M] (world : World M) (w : Workshop)

theorem tick_closes {p : Poll} {s : Store} (hrow : s.request? p.request.trackingId = some row)
    (hpending : row.state = .pending) :
    Always (fun out => ∃ now later steps, (∀ step ∈ steps, step.isTick = false) ∧
        Closes w.monitor w.verifier row p s (.tick now later :: steps) out.1 out.2.1 out.2.2.2
          out.2.2.1)
      (w.tick world p s) := by
  refine (w.tick_follows world p s).imp fun out hout => ?_
  obtain ⟨now, later, stage, steps, hturns, hsteps, hrest, houtcome⟩ := hout
  rw [houtcome]
  exact ⟨now, later, steps, hturns, .of_follow hrow hpending hsteps hrest⟩

theorem poll_closes (interval ticks : Nat) {p : Poll} {s : Store}
    (hrow : s.request? p.request.trackingId = some row) (hpending : row.state = .pending) :
    Always (fun out => ∃ steps p',
        Closes w.monitor w.verifier row p s steps p' (some out.1) out.2.2 out.2.1)
      (w.poll world interval ticks p s) := by
  have hcancelled : Closes w.monitor w.verifier row p s [.cancel] p (some (.ok .cancelled)) []
      (p.cancel s).2 := .of_follow hrow hpending rfl trivial
  induction ticks generalizing p s with
  | zero => exact .pure ⟨_, _, hcancelled⟩
  | succ ticks ih =>
    unfold poll
    refine .any_bind fun called => ?_
    split
    · exact .pure ⟨_, _, hcancelled⟩
    refine .any_bind fun _ => .any_bind fun calledLater => ?_
    split
    · exact .pure ⟨_, _, hcancelled⟩
    refine (w.tick_closes world hrow hpending).bind fun out hout => ?_
    obtain ⟨p', outcome, t, alerts⟩ := out
    obtain ⟨now, later, steps, -, hcloses⟩ := hout
    cases outcome with
    | some outcome => exact .pure ⟨_, _, hcloses⟩
    | none =>
      -- The tick changed nothing that is seen, so the rest of the poll starts from the same request.
      have hnone : ended? w.monitor w.verifier (p.begun, s) _ = none :=
        Option.map_eq_none_iff.1 hcloses.agrees.outcome.symm
      obtain rfl : alerts = [] := by
        have := hcloses.agrees.alerts
        rwa [hnone] at this
      have hrow' : t.request? p'.request.trackingId = some row := by
        rw [hcloses.request, hcloses.agrees.stored, hnone]
        cases row
        cases hpending
        rfl
      have hcancelled' : Closes w.monitor w.verifier row p' t [.cancel] p' (some (.ok .cancelled)) []
          (p'.cancel t).2 := .of_follow hrow' hpending rfl trivial
      refine (ih hrow' hcancelled').bind fun out hout => .pure ?_
      obtain ⟨steps', p'', hrest⟩ := hout
      exact ⟨_, _, hcloses.trans hrow hpending hrest⟩

end Workshop

/-- The accord of a poll of a pending request after some happenings. -/
structure Accords (m : Monitor) (v : Verifier) (row : RequestRow) (p : Poll) (s : Store)
    (hs : List Happening) : Prop where
  /-- What the poll gives, what its request has become and which alerts were given agree. -/
  shows : (follow m v (p.begun, s) hs).1.Shows (follow m v (p.begun, s) hs).2 row p.request
    (ended? m v (p.begun, s) hs)
  due : ∀ e, ended? m v (p.begun, s) hs = some e → e.Due p
  /-- Ranges and folios are touched only to ingest. -/
  ledger : SparesLedger m v (p.begun, s) hs ∨
    (∃ range, (follow m v (p.begun, s) hs).1.stage = .accepting range) ∨
    ∃ range now, ended? m v (p.begun, s) hs = some (.ingested range now)
  /-- The next turn brings the poll to where it has to go. -/
  brings : ∀ step stage,
    BringsTo m v (follow m v (p.begun, s) hs).1 (follow m v (p.begun, s) hs).2 step stage →
    (follow m v (p.begun, s) (hs ++ [.own step])).1.stage = stage
  /-- A failure may pass only if the artifact was not delivered or the medium failed. -/
  passes : ∀ step failure,
    Fails m v (follow m v (p.begun, s) hs).1 (follow m v (p.begun, s) hs).2 step failure →
    failure.MayPass →
      (∃ now, step = .delivered now (.error failure)) ∨ ∃ fault, failure = .storage fault
  /-- One that may not pass ends the poll with a request that is rejected for it, and nothing else
  does. -/
  fails : ∀ failure : Failure, ¬ failure.MayPass → (FailsIn m v failure (p.begun, s) hs ↔
    (follow m v (p.begun, s) hs).1.stage = .rejecting failure ∨
      ∃ now, ended? m v (p.begun, s) hs = some (.ingestionFailed failure now))

/-- A request that is polled. -/
def awaited : ReplenishmentRequest :=
  ⟨"trk-1", ⟨"A", "T"⟩, 1, 5, .pending, none, none, earlyAt 2, none⟩

/-- Its poll. -/
def awaitedPoll : Poll := ⟨awaited, ⟨"replenish:A:T", "token", 1, earlyAt 21⟩, earlyAt 50⟩

/-- The lock is taken, and the request recorded. -/
def awaitedStore : Store :=
  Store.empty.run [⟨earlyAt 1, .acquire 20000 "token" "replenish:A:T"⟩,
    ⟨earlyAt 2, .recordRequest awaited⟩]

/-- The artifact is not there, and meanwhile somebody else registers a range and hands out one of its
folios. -/
def missingArtifact : List Happening :=
  [.own (.tick (earlyAt 3) (earlyAt 3)), .own (.answered (.ok .pending)),
   .other ⟨earlyAt 4, .register 10 none "high"
     ⟨⟨"A", "T"⟩, 6, 10, earlyAt 0, earlyAt 50, none, none⟩⟩,
   .own (.tick (earlyAt 5) (earlyAt 6)), .own (.answered (.ok (.accepted "there"))),
   .other ⟨earlyAt 6, .assign ⟨false, none⟩ ⟨"A", "T"⟩ none⟩,
   .own (.delivered (earlyAt 7) (.error (.notFound (.resource "there")))),
   .own (.reject (earlyAt 8))]

/-- The artifact is accepted, but meanwhile somebody else registers a range with its last number. -/
def takenNumber : List Happening :=
  [.own (.tick (earlyAt 3) (earlyAt 3)), .own (.answered (.ok (.accepted "there"))),
   .other ⟨earlyAt 4, .register 10 none "high"
     ⟨⟨"A", "T"⟩, 5, 9, earlyAt 0, earlyAt 50, none, none⟩⟩,
   .own (.delivered .epoch (.ok trialBytes)), .own (.register none "R1" (earlyAt 5)),
   .own (.reject (earlyAt 6))]

/-- Before its artifact is delivered. -/
def beforeDelivery : Polling × Store :=
  (⟨⟨awaited, ⟨"replenish:A:T", "token", 1, earlyAt 23⟩, earlyAt 50⟩, .fetching "there", []⟩,
    (follow ⟨5, 10, 20000, 60⟩ trialVerifier (awaitedPoll.begun, awaitedStore) (takenNumber.take 3)).2)

theorem follow_takenNumber :
    follow ⟨5, 10, 20000, 60⟩ trialVerifier (awaitedPoll.begun, awaitedStore) (takenNumber.take 4) =
    ({ beforeDelivery.1 with stage := .registering (beforeDelivery.1.poll.granted trialVerified) },
      beforeDelivery.2) := by
  have hfetching : follow ⟨5, 10, 20000, 60⟩ trialVerifier (awaitedPoll.begun, awaitedStore)
      (takenNumber.take 3) = beforeDelivery := by rfl
  have hverified : beforeDelivery.1.poll.delivered trialVerifier .epoch (.ok trialBytes) =
      .registering (beforeDelivery.1.poll.granted trialVerified) :=
    Poll.delivered_of_verify verify_trialBytes rfl rfl
  have hlast : takenNumber.take 4 =
      takenNumber.take 3 ++ [.own (.delivered .epoch (.ok trialBytes))] := rfl
  rw [hlast, follow_append, hfetching, follow_cons, follow_nil, meet, ← hverified]
  rfl

theorem fails_takenNumber : Fails ⟨5, 10, 20000, 60⟩ trialVerifier
    (follow ⟨5, 10, 20000, 60⟩ trialVerifier (awaitedPoll.begun, awaitedStore) (takenNumber.take 4)).1
    (follow ⟨5, 10, 20000, 60⟩ trialVerifier (awaitedPoll.begun, awaitedStore) (takenNumber.take 4)).2
    (.register none "R1" (earlyAt 5)) (.rangeOverlap ⟨"A", "T"⟩ 1 5 "high") := by
  rw [follow_takenNumber]
  have hregister : beforeDelivery.2.register 10 none "R1" (earlyAt 5)
      (beforeDelivery.1.poll.granted trialVerified) =
        .error (.rangeOverlap ⟨"A", "T"⟩ 1 5 "high") := by
    rw [register_eq_of_check (by decide +kernel) (by decide)]
    rfl
  obtain ⟨range, hread, hforeign⟩ : ∃ range, beforeDelivery.2.getRange "high" = .ok range ∧
      range.trackingId = none := ⟨_, by rfl, by rfl⟩
  exact .taken rfl hregister hread (by rw [hforeign]; nofun)

end FolioLedger
