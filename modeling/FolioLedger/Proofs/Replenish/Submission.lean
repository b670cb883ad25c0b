import FolioLedger.Proofs.Replenish.Held

/-!
# Submissions

A trigger submits a request only under the lock of its series and while no request of the series is
pending (`Monitor.prepare_submitted`).  With the tracking id that it gets it records the request, or
fails (`Monitor.record_eq_ok`).
-/

namespace FolioLedger

open Store

/-- What holds when a request is submitted under a token: it goes on from `s` to `t`. -/
structure Draft.Submitted (draft : Draft) (s : Store) (now : Instant) (token : String) (t : Store) :
    Prop where
  grants : s.Grants now token (Lock.replenishment draft.request.series) draft.lease t
  idle : ∀ r ∈ s.requests, r.series = draft.request.series → r.state ≠ .pending
  requests : t.requests = s.requests
  bounds : draft.request.first ≤ draft.request.last

namespace Monitor

variable {m : Monitor} {s t : Store} {now later : Instant} {token : String} {series : Series}
  {threshold : Nat} {lease : Lease} {draft : Draft}

theorem nextRequest_eq_ok {r : RangeRequest} (h : m.nextRequest s series = .ok r) :
    r.series = series ∧ r.first ≤ r.last := by
  have hask : ∀ first : Nat, (do
      if 1 <<< 64 ≤ first + (m.quantity - 1) then throw (.invalidRequest .beyondNumbers)
      RangeRequest.check m.maxRangeSize ⟨series, first, first + (m.quantity - 1)⟩
      return ⟨series, first, first + (m.quantity - 1)⟩) = Except.ok r →
      r.series = series ∧ r.first ≤ r.last := by
    intro first hok
    simp only [throw_bind] at hok
    split at hok
    · cases hok
    obtain ⟨_, -, hok⟩ := bind_eq_ok.1 hok
    cases hok
    exact ⟨rfl, Nat.le_add_right ..⟩
  exact hask _ h

theorem idle_of_pendingRequest (h : s.pendingRequest series = .ok none) :
    ∀ r ∈ s.requests, r.series = series → r.state ≠ .pending := by
  intro r hr hseries hpending
  unfold pendingRequest at h
  cases hfind : s.requests.find? fun r => r.series = series ∧ r.isPending with
  | none =>
    rw [List.find?_eq_none] at hfind
    exact hfind r hr (by simp [hseries, hpending, RequestRow.isPending])
  | some row =>
    rw [hfind, Option.mapM_some] at h
    cases hrow : row.toRequest with
    | ok request =>
      rw [hrow] at h
      cases h
    | error failure =>
      rw [hrow] at h
      cases h

theorem prepareLocked_eq_ok (h : m.prepareLocked s now series threshold lease = .ok (.inr draft)) :
    draft.lease = lease ∧ draft.request.series = series ∧
      draft.request.first ≤ draft.request.last ∧
      ∀ r ∈ s.requests, r.series = series → r.state ≠ .pending := by
  unfold prepareLocked at h
  obtain ⟨pending, hpending, h⟩ := bind_eq_ok.1 h
  cases pending with
  | some request => cases h
  | none =>
    have hidle := idle_of_pendingRequest hpending
    simp only at h
    split at h
    · cases h
    · obtain ⟨request, hrequest, h⟩ := bind_eq_ok.1 h
      cases h
      obtain ⟨hseries, hbounds⟩ := nextRequest_eq_ok hrequest
      exact ⟨rfl, hseries, hbounds, hidle⟩

theorem prepare_submitted (h : m.prepare s now later token series threshold = (.submit draft, t)) :
    draft.request.series = series ∧ draft.Submitted s now token t := by
  unfold Monitor.prepare at h
  split at h
  · cases h
  · cases h
  · next lease u hacquire =>
    split at h
    · cases h
    · cases h
    · cases h
    · next draft' hlocked =>
      cases h
      obtain ⟨rfl, rfl, hbounds, hidle⟩ := prepareLocked_eq_ok hlocked
      have hrequests : t.requests = s.requests := by
        have := s.acquire_requests now m.lockTtl token (Lock.replenishment draft.request.series)
        rw [hacquire] at this
        exact this
      exact ⟨rfl, acquire_grants hacquire, hrequests ▸ hidle, hrequests, hbounds⟩

/-- A request that is recorded is pending, under the tracking id that the authority gave to it. -/
theorem record_eq_ok {answer : Except Failure String} {outcome : TriggerOutcome}
    (h : (record s draft answer).1 = .ok outcome) : ∃ trackingId, answer = .ok trackingId ∧
      ∃ r ∈ (record s draft answer).2.requests,
        r.Stores trackingId draft.request ∧ r.state = .pending := by
  unfold record at h ⊢
  cases answer with
  | error failure => cases h
  | ok trackingId =>
    refine ⟨trackingId, rfl, ?_⟩
    simp only at h ⊢
    cases hrecord : s.recordRequest (recordOf draft trackingId) with
    | error failure =>
      rw [hrecord] at h
      cases h
    | ok t =>
      obtain ⟨-, rfl⟩ := recordRequest_eq_ok_iff.1 hrecord
      exact ⟨_, List.mem_append_right _ (List.mem_singleton_self _), ⟨rfl, rfl, rfl, rfl⟩, rfl⟩

end Monitor

/-- The trigger that went on with an answer at `s` failed, or it recorded a request that is resolved
in `t`. -/
def Draft.Closed (draft : Draft) (answer : Except Failure String) (s t : Store) : Prop :=
  (∃ failure, (Monitor.record s draft answer).1 = .error failure) ∨
    ∃ trackingId, answer = .ok trackingId ∧ ∃ r ∈ (Monitor.record s draft answer).2.requests,
      r.Stores trackingId draft.request ∧ r.state = .pending ∧
        ∃ r' ∈ t.requests, r.Kept r' ∧ r'.state ≠ .pending

theorem Draft.closed_of_idle (draft : Draft) (answer : Except Failure String) {s t : Store}
    (hkeeps : KeepsRequests (Monitor.record s draft answer).2 t)
    (hidle : ∀ r ∈ t.requests, r.series = draft.request.series → r.state ≠ .pending) :
    draft.Closed answer s t := by
  cases hres : (Monitor.record s draft answer).1 with
  | error failure => exact .inl ⟨failure, hres⟩
  | ok outcome =>
    obtain ⟨trackingId, hanswer, r, hr, hstores, hpending⟩ := Monitor.record_eq_ok hres
    obtain ⟨r', hr', hkept⟩ := hkeeps r hr
    have hseries : r'.series = draft.request.series := (hkept.stores hstores).series
    exact .inr ⟨trackingId, hanswer, r, hr, hstores, hpending, r', hr', hkept,
      hidle r' hr' hseries⟩

end FolioLedger
