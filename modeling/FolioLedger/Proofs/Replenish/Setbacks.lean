import FolioLedger.Proofs.Replenish.Artifact
import FolioLedger.Proofs.Replenish.Polling

/-!
# Ingestions that fail

`Polling.Fails` says when the ingestion of an accepted request fails and with what, by what the authority
delivers, the verifier finds and the store answers: the artifact cannot be had, is not accepted, or is for
other numbers; or its range is refused, or meets one that cannot be read or is not of this request.
`Polling.BringsTo` says the same of the turns at which a poll goes on.  Both are about what the turns are
given, and `Polling.go_of_bringsTo` that the poll keeps to it: after a failure it waits for the next tick if
the failure may pass (`Failure.MayPass`), and otherwise goes to close the request.

What may pass is only that the artifact was not delivered, or a failure of the medium
(`Polling.Fails.of_mayPass`).  An artifact that is not accepted closes the request, and so do other bounds
and numbers that are taken.
-/

namespace FolioLedger

open Store

/-! ## Failures that may pass -/

/-- A failure that may be gone at a later attempt: one of the medium, or on the way to the lock or the
authority. -/
def Failure.MayPass : Failure → Prop
  | .storage _ | .lockBusy _ | .lockLost _ | .authorityTimeout _ | .authorityUnavailable _ => True
  | _ => False

theorem Poll.mayRetry_iff (failure : Failure) : mayRetry failure = true ↔ failure.MayPass := by
  cases failure <;> simp [mayRetry, Failure.isTransient, Failure.MayPass]

theorem Except.bind_eq_error {ε α β : Type} {x : Except ε α} {f : α → Except ε β} {e : ε} :
    (x >>= f) = .error e ↔ x = .error e ∨ ∃ a, x = .ok a ∧ f a = .error e := by
  cases x with
  | error e' => simp [Bind.bind, Except.bind]
  | ok a => simp [Bind.bind, Except.bind]

/-- No artifact is refused for a reason that may pass. -/
theorem Verifier.not_mayPass {v : Verifier} {raw : ByteArray} {expected : Series} {now : Instant}
    {failure : Failure} (h : v.verify raw expected now = .error failure) : ¬ failure.MayPass := by
  simp only [verify, throw_bind] at h
  repeat' split at h
  all_goals (cases h; try exact id)

theorem NewRange.check_eq_error {limit : Nat} {new : NewRange} {failure : Failure}
    (h : new.check limit = .error failure) : ∃ fault, failure = .invalidRange fault := by
  unfold check at h
  repeat' split at h
  all_goals first | exact ⟨_, (Except.error.inj h).symm⟩ | cases h

theorem Instant.ofMillis_eq_error {ms : Millis} {failure : Failure} (h : ofMillis ms = .error failure) :
    ∃ fault, failure = .storage fault := by
  unfold ofMillis at h
  split at h
  · cases h
  · exact ⟨_, (Except.error.inj h).symm⟩

/-- A row that cannot be read back has a time that cannot. -/
theorem RangeRecord.toRange_eq_error {r : RangeRow} {failure : Failure} (h : r.toRange = .error failure) :
    ∃ fault, failure = .storage fault := by
  unfold toRange at h
  rcases Except.bind_eq_error.1 h with h | ⟨_, -, h⟩
  · exact Instant.ofMillis_eq_error h
  rcases Except.bind_eq_error.1 h with h | ⟨_, -, h⟩
  · exact Instant.ofMillis_eq_error h
  rcases Except.bind_eq_error.1 h with h | ⟨_, -, h⟩
  · exact Instant.ofMillis_eq_error h
  rcases Except.bind_eq_error.1 h with h | ⟨_, -, h⟩
  · cases halerted : r.nearExpiryAlertedAt with
    | none =>
      rw [halerted] at h
      cases h
    | some ms =>
      rw [halerted, Option.mapM_some] at h
      rcases Except.bind_eq_error.1 h with h | ⟨_, -, h⟩
      · exact Instant.ofMillis_eq_error h
      · cases h
  · cases h

namespace Store

variable {s : Store} {failure : Failure}

/-- A range is refused for a reason that may pass only by the medium. -/
theorem register_of_mayPass {limit : Nat} {faulty : Option Nat} {id : String} {now : Instant}
    {new : NewRange} (h : s.register limit faulty id now new = .error failure)
    (hpass : failure.MayPass) : ∃ fault, failure = .storage fault := by
  have hnumber : ∀ n, checkNumber n ≠ .error failure := by
    intro n hn
    unfold checkNumber at hn
    split at hn <;> cases hn
    exact hpass
  unfold register at h
  rcases Except.bind_eq_error.1 h with h | ⟨_, -, h⟩
  · obtain ⟨fault, rfl⟩ := NewRange.check_eq_error h
    exact hpass.elim
  rcases Except.bind_eq_error.1 h with h | ⟨_, -, h⟩
  · exact absurd h (hnumber _)
  rcases Except.bind_eq_error.1 h with h | ⟨_, -, h⟩
  · exact absurd h (hnumber _)
  rcases Except.bind_eq_error.1 h with h | ⟨_, -, h⟩
  · unfold checkNumbers at h
    repeat' split at h
    all_goals (cases h; try exact hpass.elim)
  rcases Except.bind_eq_error.1 h with h | ⟨_, -, h⟩
  · unfold checkRows at h
    repeat' split at h
    all_goals (cases h; try exact ⟨_, rfl⟩)
  · cases h

theorem getRange_of_mayPass {id : String} (h : s.getRange id = .error failure)
    (hpass : failure.MayPass) : ∃ fault, failure = .storage fault := by
  unfold getRange at h
  split at h
  · exact RangeRecord.toRange_eq_error h
  · cases h
    exact hpass.elim

end Store

/-! ## What turns come to -/

namespace Poll

variable {p : Poll} {m : Monitor} {v : Verifier} {s t : Store} {now later : Instant}

/-- The range that an artifact stands for. -/
def granted (p : Poll) (a : VerifiedArtifact) : NewRange where
  series := p.request.series
  first := a.first
  last := a.last
  authorizedAt := a.authorizedAt
  expiresAt := a.expiresAt
  artifactHash := some a.hash
  trackingId := some p.request.trackingId

theorem tick_of_renew {lease : Lease} (hrenew : s.renew now m.lockTtl p.lease = (.ok lease, t))
    (hintime : ¬ p.deadline ≤ later) :
    p.tick m s now later = ((.asking later, { p with lease := lease }), t, []) := by
  simp only [tick, hrenew, hintime, if_false]

/-- What is delivered is verified and then compared with the request. -/
theorem delivered_ok (p : Poll) (v : Verifier) (now : Instant) (bytes : ByteArray) :
    p.delivered v now (.ok bytes) =
      match v.verify bytes p.request.series now >>= p.rangeOf with
      | .ok new => .registering new
      | .error failure => afterFailure failure :=
  rfl

variable {bytes : ByteArray}

theorem delivered_of_verify {a : VerifiedArtifact}
    (hverify : v.verify bytes p.request.series now = .ok a) (hfirst : a.first = p.request.first)
    (hlast : a.last = p.request.last) :
    p.delivered v now (.ok bytes) = .registering (p.granted a) := by
  have hrange : (Except.ok a >>= p.rangeOf) = .ok (p.granted a) := if_pos ⟨hfirst, hlast⟩
  rw [delivered_ok, hverify, hrange]

theorem delivered_of_unverified {failure : Failure}
    (hverify : v.verify bytes p.request.series now = .error failure) :
    p.delivered v now (.ok bytes) = afterFailure failure := by
  rw [delivered_ok, hverify]
  rfl

theorem delivered_of_otherBounds {a : VerifiedArtifact}
    (hverify : v.verify bytes p.request.series now = .ok a)
    (hbounds : ¬ (a.first = p.request.first ∧ a.last = p.request.last)) :
    p.delivered v now (.ok bytes) = afterFailure
      (.invalidArtifact (.otherBounds a.first a.last p.request.first p.request.last)) := by
  have hrange : (Except.ok a >>= p.rangeOf) = .error _ := if_neg hbounds
  rw [delivered_ok, hverify, hrange]

theorem register_of_ok {faulty : Option Nat} {id : String} {new : NewRange} {range : Range}
    (h : s.register m.maxRangeSize faulty id now new = .ok (range, t)) :
    p.register m faulty s id now new = (.accepting range, t) := by
  simp only [register, h]

theorem register_of_error {faulty : Option Nat} {id : String} {new : NewRange} {failure : Failure}
    (h : s.register m.maxRangeSize faulty id now new = .error failure)
    (hreason : ∀ series first last existing, failure ≠ .rangeOverlap series first last existing) :
    p.register m faulty s id now new = (afterFailure failure, s) := by
  simp only [register, h]

theorem afterFailure_of_mayPass {failure : Failure} (h : failure.MayPass) :
    afterFailure failure = .waiting :=
  if_pos ((mayRetry_iff failure).2 h)

theorem afterFailure_of_not_mayPass {failure : Failure} (h : ¬ failure.MayPass) :
    afterFailure failure = .rejecting failure :=
  if_neg (mt (mayRetry_iff failure).1 h)

end Poll

namespace Polling

variable (m : Monitor) (v : Verifier) (q : Polling) (s : Store)

/-- A turn at which the ingestion fails, and with what. -/
inductive Fails : PollStep → Failure → Prop
  | unavailable {location : String} {now : Instant} {failure : Failure}
      (stage : q.stage = .fetching location) : Fails (.delivered now (.error failure)) failure
  | unverified {location : String} {now : Instant} {bytes : ByteArray} {failure : Failure}
      (stage : q.stage = .fetching location)
      (verify : v.verify bytes q.poll.request.series now = .error failure) :
      Fails (.delivered now (.ok bytes)) failure
  | otherBounds {location : String} {now : Instant} {bytes : ByteArray} {a : VerifiedArtifact}
      (stage : q.stage = .fetching location)
      (verify : v.verify bytes q.poll.request.series now = .ok a)
      (bounds : ¬ (a.first = q.poll.request.first ∧ a.last = q.poll.request.last)) :
      Fails (.delivered now (.ok bytes))
        (.invalidArtifact (.otherBounds a.first a.last q.poll.request.first q.poll.request.last))
  /-- The range is refused, and not because numbers of it are taken. -/
  | refused {new : NewRange} {faulty : Option Nat} {id : String} {now : Instant} {failure : Failure}
      (stage : q.stage = .registering new)
      (register : s.register m.maxRangeSize faulty id now new = .error failure)
      (reason : ∀ series first last existing, failure ≠ .rangeOverlap series first last existing) :
      Fails (.register faulty id now) failure
  /-- The range that numbers are taken by cannot be read back. -/
  | illegible {new : NewRange} {faulty : Option Nat} {id existing : String} {now : Instant}
      {series : Series} {first last : Nat} {failure : Failure} (stage : q.stage = .registering new)
      (register : s.register m.maxRangeSize faulty id now new =
        .error (.rangeOverlap series first last existing))
      (read : s.getRange existing = .error failure) : Fails (.register faulty id now) failure
  /-- Numbers are taken by a range that is not of this request. -/
  | taken {new : NewRange} {faulty : Option Nat} {id existing : String} {now : Instant}
      {series : Series} {first last : Nat} {range : Range} (stage : q.stage = .registering new)
      (register : s.register m.maxRangeSize faulty id now new =
        .error (.rangeOverlap series first last existing))
      (read : s.getRange existing = .ok range)
      (foreign : range.trackingId ≠ some q.poll.request.trackingId) :
      Fails (.register faulty id now) (.rangeOverlap series first last existing)

/-- A turn at which a poll goes on, and where to. -/
inductive BringsTo : PollStep → PollStage → Prop
  | asks {now later : Instant} {lease : Lease} {t : Store} (stage : q.stage = .waiting)
      (renew : s.renew now m.lockTtl q.poll.lease = (.ok lease, t))
      (inTime : ¬ q.poll.deadline ≤ later) : BringsTo (.tick now later) (.asking later)
  | unheard {since : Instant} {failure : Failure} (stage : q.stage = .asking since)
      (transient : failure.isTransient) : BringsTo (.answered (.error failure)) .waiting
  | undecided {since : Instant} (stage : q.stage = .asking since) :
      BringsTo (.answered (.ok .pending)) .waiting
  | accepted {since : Instant} {location : String} (stage : q.stage = .asking since) :
      BringsTo (.answered (.ok (.accepted location))) (.fetching location)
  | verified {location : String} {now : Instant} {bytes : ByteArray} {a : VerifiedArtifact}
      (stage : q.stage = .fetching location)
      (verify : v.verify bytes q.poll.request.series now = .ok a)
      (bounds : a.first = q.poll.request.first ∧ a.last = q.poll.request.last) :
      BringsTo (.delivered now (.ok bytes)) (.registering (q.poll.granted a))
  | registered {new : NewRange} {faulty : Option Nat} {id : String} {now : Instant} {range : Range}
      {t : Store} (stage : q.stage = .registering new)
      (register : s.register m.maxRangeSize faulty id now new = .ok (range, t)) :
      BringsTo (.register faulty id now) (.accepting range)
  /-- The range was registered before. -/
  | found {new : NewRange} {faulty : Option Nat} {id existing : String} {now : Instant}
      {series : Series} {first last : Nat} {range : Range} (stage : q.stage = .registering new)
      (register : s.register m.maxRangeSize faulty id now new =
        .error (.rangeOverlap series first last existing))
      (read : s.getRange existing = .ok range)
      (own : range.trackingId = some q.poll.request.trackingId) :
      BringsTo (.register faulty id now) (.accepting range)
  | retried {step : PollStep} {failure : Failure} (fails : Fails m v q s step failure)
      (pass : failure.MayPass) : BringsTo step .waiting
  | failed {step : PollStep} {failure : Failure} (fails : Fails m v q s step failure)
      (last : ¬ failure.MayPass) : BringsTo step (.rejecting failure)

/-- The ingestion fails in the course of some happenings. -/
def FailsIn (failure : Failure) (here : Polling × Store) : List Happening → Prop
  | [] => False
  | .own step :: hs => Fails m v here.1 here.2 step failure ∨
    FailsIn failure (here.1.go m v here.2 step) hs
  | .other e :: hs => FailsIn failure (here.1, here.2.after e) hs

variable {m v q s} {step : PollStep} {failure : Failure}

/-- Ingestions fail when the artifact is delivered or the range registered. -/
theorem Fails.stage_step (h : Fails m v q s step failure) :
    (∃ location now answer, q.stage = .fetching location ∧ step = .delivered now answer) ∨
      ∃ new faulty id now, q.stage = .registering new ∧ step = .register faulty id now := by
  cases h with
  | unavailable hstage | unverified hstage | otherBounds hstage => exact .inl ⟨_, _, _, hstage, rfl⟩
  | refused hstage | illegible hstage | taken hstage => exact .inr ⟨_, _, _, _, hstage, rfl⟩

theorem Fails.stage_ne (h : Fails m v q s step failure) (other : Failure) :
    q.stage ≠ .rejecting other := by
  rcases h.stage_step with ⟨_, _, _, hstage, -⟩ | ⟨_, _, _, _, hstage, -⟩ <;> rw [hstage] <;> nofun

theorem BringsTo.stage_ne {stage : PollStage} (h : BringsTo m v q s step stage) (other : Failure) :
    q.stage ≠ .rejecting other := by
  cases h with
  | retried hfails | failed hfails => exact hfails.stage_ne other
  | asks hstage | unheard hstage | undecided hstage | accepted hstage | verified hstage
  | registered hstage | found hstage => rw [hstage]; nofun

theorem Fails.exists_bringsTo (h : Fails m v q s step failure) :
    ∃ stage, BringsTo m v q s step stage := by
  by_cases hpass : failure.MayPass
  · exact ⟨_, .retried h hpass⟩
  · exact ⟨_, .failed h hpass⟩

/-- Only what was not delivered and failures of the medium are left to the next tick. -/
theorem Fails.of_mayPass (h : Fails m v q s step failure) (hpass : failure.MayPass) :
    (∃ now, step = .delivered now (.error failure)) ∨ ∃ fault, failure = .storage fault := by
  cases h with
  | unavailable => exact .inl ⟨_, rfl⟩
  | unverified _ verify => exact absurd hpass (Verifier.not_mayPass verify)
  | otherBounds => exact hpass.elim
  | refused _ register => exact .inr (register_of_mayPass register hpass)
  | illegible _ _ read => exact .inr (getRange_of_mayPass read hpass)
  | taken => exact hpass.elim

/-- A failure changes nothing but the stage. -/
theorem go_of_fails (h : Fails m v q s step failure) :
    q.go m v s step = ({ q with stage := Poll.afterFailure failure }, s) := by
  obtain ⟨p, stage, alerts⟩ := q
  cases h with
  | unavailable hstage =>
    cases hstage
    rfl
  | unverified hstage verify =>
    cases hstage
    simp only [go, Poll.delivered_of_unverified verify]
  | otherBounds hstage verify bounds =>
    cases hstage
    simp only [go, Poll.delivered_of_otherBounds verify bounds]
  | refused hstage register reason =>
    cases hstage
    simp only [go, Poll.register_of_error register reason]
  | illegible hstage register read =>
    cases hstage
    simp only [go, Poll.register, register, read]
  | taken hstage register read foreign =>
    cases hstage
    simp only [go, Poll.register, register, read, foreign, if_false]

/-- The poll goes where the turn brings it. -/
theorem go_of_bringsTo {stage : PollStage} (h : BringsTo m v q s step stage) :
    (q.go m v s step).1.stage = stage := by
  cases h with
  | retried hfails hpass => rw [go_of_fails hfails, Poll.afterFailure_of_mayPass hpass]
  | failed hfails hlast => rw [go_of_fails hfails, Poll.afterFailure_of_not_mayPass hlast]
  | asks hstage hrenew hintime =>
    obtain ⟨p, stage, alerts⟩ := q
    cases hstage
    simp only [go, Poll.tick_of_renew hrenew hintime]
  | unheard hstage htransient =>
    obtain ⟨p, stage, alerts⟩ := q
    cases hstage
    simp only [go, Poll.answered, htransient, if_true]
  | undecided hstage =>
    obtain ⟨p, stage, alerts⟩ := q
    cases hstage
    rfl
  | accepted hstage =>
    obtain ⟨p, stage, alerts⟩ := q
    cases hstage
    rfl
  | verified hstage hverify hbounds =>
    obtain ⟨p, stage, alerts⟩ := q
    cases hstage
    exact Poll.delivered_of_verify hverify hbounds.1 hbounds.2
  | registered hstage hregister =>
    obtain ⟨p, stage, alerts⟩ := q
    cases hstage
    simp only [go, Poll.register_of_ok hregister]
  | found hstage hregister hread hown =>
    obtain ⟨p, stage, alerts⟩ := q
    cases hstage
    simp only [go, Poll.register, hregister, hread, hown, if_true]

/-- Nothing fails any more once a poll has ended. -/
theorem not_failsIn_of_ended (h : q.stage.HasEnded) (hs : List Happening) :
    ¬ FailsIn m v failure (q, s) hs := by
  induction hs generalizing s with
  | nil => exact id
  | cons happening hs ih =>
    cases happening with
    | own step =>
      simp only [FailsIn, go_of_ended h]
      rintro (hfails | hlater)
      · rcases hfails.stage_step with ⟨_, _, _, hstage, -⟩ | ⟨_, _, _, _, hstage, -⟩ <;>
          (rw [hstage] at h; exact h)
      · exact ih hlater
    | other e => exact ih

theorem failsIn_append {here : Polling × Store} {hs hs' : List Happening} :
    FailsIn m v failure here (hs ++ hs') ↔
      FailsIn m v failure here hs ∨ FailsIn m v failure (follow m v here hs) hs' := by
  induction hs generalizing here with
  | nil => simp [FailsIn]
  | cons happening hs ih =>
    cases happening with
    | own step => exact (or_congr_right ih).trans or_assoc.symm
    | other e => exact ih

end Polling

end FolioLedger
