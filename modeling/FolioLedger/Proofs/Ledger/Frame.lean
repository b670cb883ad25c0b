import FolioLedger.Proofs.Ledger.Edit
import FolioLedger.Replenish.Poll

/-!
# What leaves the ledger alone

Locks and requests are kept beside the ledger.  Neither a lock operation nor the record of a request
touches a range or a folio, and so neither does a trigger, nor any step of a poll but the one that
registers its range (`Poll.register_edit`).
-/

namespace FolioLedger

namespace Store

variable (s : Store)

/-! ## Locks -/

theorem acquire_sameLedger (now : Instant) (ttl : Nat) (token key : String) :
    SameLedger s (s.acquire now ttl token key).2 := by
  unfold acquire
  split
  · exact ⟨rfl, rfl⟩
  · split <;> exact ⟨rfl, rfl⟩

theorem renew_sameLedger (now : Instant) (ttl : Nat) (lease : Lease) :
    SameLedger s (s.renew now ttl lease).2 := by
  simp only [renew]
  split <;> exact ⟨rfl, rfl⟩

@[simp] theorem acquire_requests (now : Instant) (ttl : Nat) (token key : String) :
    (s.acquire now ttl token key).2.requests = s.requests := by
  unfold acquire
  split
  · rfl
  · split <;> rfl

@[simp] theorem renew_requests (now : Instant) (ttl : Nat) (lease : Lease) :
    (s.renew now ttl lease).2.requests = s.requests := by
  simp only [renew]
  split <;> rfl

theorem release_sameLedger (lease : Lease) : SameLedger s (s.release lease) := ⟨rfl, rfl⟩

/-! ## Requests -/

variable {s} {t : Store}

theorem recordRequest_sameLedger {r : ReplenishmentRequest} (h : s.recordRequest r = .ok t) :
    SameLedger s t := by
  simp only [recordRequest, throw_bind] at h
  split at h
  · cases h
  obtain ⟨-, -, h⟩ := bind_eq_ok.1 h
  obtain ⟨-, -, h⟩ := bind_eq_ok.1 h
  split at h
  · cases h
  · cases h
    exact ⟨rfl, rfl⟩

theorem resolve_sameLedger {trackingId : String} {state : RequestState}
    (h : s.resolve trackingId state = .ok t) : SameLedger s t := by
  unfold resolve at h
  split at h
  · cases h
    exact ⟨rfl, rfl⟩
  · split at h <;> cases h

end Store

open Store

/-! ## Triggers -/

/-- All that a trigger does to a store before a submission: it asks for the lock, and may give it
back. -/
theorem Monitor.prepare_store {P : Store → Prop} {m : Monitor} {s : Store} {now later : Instant}
    {token : String} {series : Series} {threshold : Nat}
    (acquired : P (s.acquire now m.lockTtl token (Lock.replenishment series)).2)
    (released : ∀ lease t, s.acquire now m.lockTtl token (Lock.replenishment series) =
      (.ok lease, t) → P (t.release lease)) :
    P (m.prepare s now later token series threshold).2 := by
  unfold Monitor.prepare
  split
  · next h => simpa [h] using acquired
  · next h => simpa [h] using acquired
  · next lease t h =>
    have hreleased := released lease t h
    rw [h] at acquired
    split
    · exact hreleased
    · exact hreleased
    · exact acquired
    · exact acquired

theorem Monitor.prepare_sameLedger (m : Monitor) (s : Store) (now later : Instant)
    (token : String) (series : Series) (threshold : Nat) :
    SameLedger s (m.prepare s now later token series threshold).2 := by
  have hlock := s.acquire_sameLedger now m.lockTtl token (Lock.replenishment series)
  refine prepare_store hlock fun lease t h => ?_
  rw [h] at hlock
  exact hlock.trans (t.release_sameLedger lease)

theorem Monitor.record_sameLedger (s : Store) (draft : Draft) (answer : Except Failure String) :
    SameLedger s (Monitor.record s draft answer).2 := by
  unfold Monitor.record
  split
  · exact s.release_sameLedger draft.lease
  · simp only
    split
    · next h => exact recordRequest_sameLedger h
    · exact s.release_sameLedger draft.lease

theorem Monitor.takeUp_sameLedger (m : Monitor) (s : Store) (now : Instant)
    (token trackingId : String) : SameLedger s (m.takeUp s now token trackingId).2 := by
  unfold Monitor.takeUp
  split
  · exact .refl s
  · next request _ =>
    have hlock := s.acquire_sameLedger now m.lockTtl token (Lock.replenishment request.series)
    split
    · exact .refl s
    · split
      · next h => simpa [h] using hlock
      · next h => simpa [h] using hlock

/-! ## Polls -/

namespace Poll

variable (p : Poll) (s : Store)

theorem tick_sameLedger (m : Monitor) (now later : Instant) :
    SameLedger s (p.tick m s now later).2.1 := by
  have hlock := s.renew_sameLedger now m.lockTtl p.lease
  unfold tick
  split
  · next failure s' h =>
    rw [h] at hlock
    exact hlock.trans (s'.release_sameLedger _)
  · next lease s' h =>
    rw [h] at hlock
    refine hlock.trans ?_
    simp only
    split
    · split
      · exact s'.release_sameLedger _
      · next s'' h' => exact (resolve_sameLedger h').trans (s''.release_sameLedger _)
    · exact .refl s'

theorem answered_sameLedger (since : Instant) (answer : Except Failure AuthorityStatus) :
    SameLedger s (p.answered s since answer).2.1 := by
  unfold answered
  split
  · split
    · exact .refl s
    · exact s.release_sameLedger _
  · exact .refl s
  · split
    · exact s.release_sameLedger _
    · next s' h => exact (resolve_sameLedger h).trans (s'.release_sameLedger _)
  · exact .refl s

/-- Registering is the only step of a poll that changes the ledger. -/
theorem register_edit (m : Monitor) (faulty : Option Nat) (id : String) (now : Instant)
    (new : NewRange) : Edit s (p.register m faulty s id now new).2 := by
  unfold Poll.register
  split
  · next h => exact Store.register_edit h
  · split
    · exact .aside (.refl s)
    · split <;> exact .aside (.refl s)
  · exact .aside (.refl s)

theorem accept_sameLedger (now : Instant) (range : Range) :
    SameLedger s (p.accept s now range).2 := by
  unfold accept
  split
  · exact .refl s
  · next s' h =>
    refine (resolve_sameLedger h).trans ?_
    split <;> exact s'.release_sameLedger _

theorem reject_sameLedger (now : Instant) (failure : Failure) :
    SameLedger s (p.reject s now failure).2.1 := by
  unfold reject
  split
  · exact s.release_sameLedger _
  · next s' h => exact (resolve_sameLedger h).trans (s'.release_sameLedger _)

theorem cancel_sameLedger : SameLedger s (p.cancel s).2 := s.release_sameLedger _

end Poll

end FolioLedger
