import FolioLedger.Proofs.Ledger.Run

/-!
# Turns at requests and locks

Beside the ledger a store keeps the tables of requests and of locks.  `Turn` lists what may happen
to these two, each change with what was checked before: a request is recorded or resolved, a lock is
taken, renewed or given back.  Whoever touches a lock draws a token or has one, and `Call.tokens`
says which.  An event does nothing else (`Event.turns`), so what a run does to requests and locks is
proved from the turns alone.
-/

namespace FolioLedger

open Relation

namespace Call

/-- The token that a call draws to take a lock. -/
def drawn : Call → List String
  | .acquire _ token _ => [token]
  | .prepare _ _ token _ _ => [token]
  | .takeUp _ token _ => [token]
  | _ => []

/-- The token of the lease that a call shows. -/
def shown : Call → List String
  | .renew _ lease => [lease.token]
  | .release lease => [lease.token]
  | .tick _ poll _ => [poll.lease.token]
  | .answered poll _ _ => [poll.lease.token]
  | .ingest _ _ _ poll _ => [poll.lease.token]
  | .accept poll _ => [poll.lease.token]
  | .reject poll _ => [poll.lease.token]
  | .cancel poll => [poll.lease.token]
  | _ => []

/-- The request that a trigger goes on with. -/
def recorded : Call → List Draft
  | .record draft _ => [draft]
  | _ => []

/-- The series of the requests that a call may enter in the table. -/
def entered : Call → List Series
  | .recordRequest r => [r.series]
  | .record draft _ => [draft.request.series]
  | _ => []

/-- The tokens by which a call may touch locks. -/
def tokens (c : Call) : List String :=
  c.drawn ++ c.shown ++ c.recorded.map (·.lease.token)

end Call

namespace Store

/-- What may happen to requests and locks at an instant, by somebody who has some tokens and enters
requests of some series. -/
inductive Turn (now : Instant) (tokens : List String) (entered : List Series) :
    Store → Store → Prop where
  | aside {s t : Store} (requests : t.requests = s.requests) (locks : t.locks = s.locks) :
      Turn now tokens entered s t
  | record {s : Store} {r : RequestRow} (pending : r.state = .pending)
      (storable : r.first ≤ maxNumber ∧ r.last ≤ maxNumber)
      (fresh : ∀ q ∈ s.requests, q.trackingId ≠ r.trackingId)
      (alone : ∀ q ∈ s.requests, q.series = r.series → q.state ≠ .pending)
      (mine : r.series ∈ entered) :
      Turn now tokens entered s { s with requests := s.requests ++ [r] }
  | resolve {s : Store} (trackingId : String) {state : RequestState} (final : state ≠ .pending) :
      Turn now tokens entered s { s with requests := s.requests.map fun r =>
        if r.trackingId = trackingId ∧ r.isPending then { r with state := state } else r }
  | acquire {s : Store} (ttl : Nat) {token : String} (key : String) (mine : token ∈ tokens) :
      Turn now tokens entered s (s.acquire now ttl token key).2
  | renew {s : Store} (ttl : Nat) {lease : Lease} (mine : lease.token ∈ tokens) :
      Turn now tokens entered s (s.renew now ttl lease).2
  | release {s : Store} {lease : Lease} (mine : lease.token ∈ tokens) :
      Turn now tokens entered s (s.release lease)

/-- Some turns of one caller. -/
abbrev Turns (now : Instant) (tokens : List String) (entered : List Series) :
    Store → Store → Prop :=
  ReflTransGen (Turn now tokens entered)

variable {s t u : Store} {now : Instant} {tokens : List String} {entered : List Series}

namespace Turn

theorem refl (s : Store) : Turn now tokens entered s s := .aside rfl rfl

end Turn

/-! ## The ledger -/

@[simp] theorem settle_requests (s : Store) (id : String) :
    (s.settle id).requests = s.requests := by
  unfold settle
  split <;> rfl

@[simp] theorem settle_locks (s : Store) (id : String) : (s.settle id).locks = s.locks := by
  unfold settle
  split <;> rfl

theorem register_turn {limit : Nat} {faulty : Option Nat} {id : String} {clock : Instant}
    {new : NewRange} {range : Range}
    (h : s.register limit faulty id clock new = .ok (range, t)) : Turn now tokens entered s t := by
  obtain ⟨-, -, rfl⟩ := register_eq_ok h
  exact .aside rfl rfl

theorem assign_turn {clock : Instant} {series : Series} {document : Option String}
    {a : Assignment} (h : s.assign clock series document = .ok (a, t)) :
    Turn now tokens entered s t := by
  obtain ⟨row, hout⟩ := assign_handsOut h
  rw [hout.result]
  exact .aside (settle_requests ..) (settle_locks ..)

theorem void_turn {clock : Instant} {series : Series} {number : Nat} {reason : String}
    {res : Folio × Nat} (h : s.void clock series number reason = .ok (res, t)) :
    Turn now tokens entered s t := by
  obtain ⟨row, -, -, -, -, rfl⟩ := void_eq_ok h
  exact .aside (settle_requests ..) (settle_locks ..)

theorem bind_turn {series : Series} {number : Nat} {document : String} {d : Folio}
    (h : s.bind series number document = .ok (d, t)) : Turn now tokens entered s t := by
  simp only [Store.bind] at h
  obtain ⟨-, -, h⟩ := bind_eq_ok.1 h
  split at h
  · obtain ⟨folio, -, h⟩ := bind_eq_ok.1 h
    split at h
    · cases h
      exact .aside rfl rfl
    · split at h
      · cases h
        exact .refl s
      · cases h
    · cases h
  · cases h

theorem expire_turn {moment : Instant} {expired : List Range}
    (h : s.expire moment = .ok (expired, t)) : Turn now tokens entered s t := by
  simp only [expire] at h
  obtain ⟨_, -, h⟩ := bind_eq_ok.1 h
  cases h
  exact .aside rfl rfl

/-! ## Requests -/

/-- A request is recorded if it is pending, has bounds that can be stored and a tracking id that is
not taken, and if no other request of its series is pending. -/
theorem recordRequest_eq_ok_iff {r : ReplenishmentRequest} :
    s.recordRequest r = .ok t ↔
      (r.status = .pending ∧ (r.first ≤ maxNumber ∧ r.last ≤ maxNumber) ∧
        (∀ q ∈ s.requests, q.trackingId ≠ r.trackingId) ∧
        ∀ q ∈ s.requests, q.series = r.series → q.state ≠ .pending) ∧
      t = { s with requests := s.requests ++
        [⟨r.trackingId, r.series, r.first, r.last, r.requestedAt.toMillis, .pending⟩] } := by
  have hfree : (¬ s.requests.any fun row =>
      row.trackingId = r.trackingId ∨ (row.series = r.series ∧ row.isPending)) ↔
      (∀ q ∈ s.requests, q.trackingId ≠ r.trackingId) ∧
        ∀ q ∈ s.requests, q.series = r.series → q.state ≠ .pending := by
    simp only [List.any_eq_true, decide_eq_true_eq, RequestRow.isPending, beq_iff_eq]
    constructor
    · intro hnone
      exact ⟨fun q hq hid => hnone ⟨q, hq, .inl hid⟩,
        fun q hq hseries hpending => hnone ⟨q, hq, .inr ⟨hseries, hpending⟩⟩⟩
    · rintro ⟨hfresh, halone⟩ ⟨q, hq, hid | ⟨hseries, hpending⟩⟩
      · exact hfresh q hq hid
      · exact halone q hq hseries hpending
  constructor
  · intro h
    simp only [recordRequest, throw_bind] at h
    split at h
    · cases h
    next hstatus =>
    obtain ⟨_, hfirst, h⟩ := bind_eq_ok.1 h
    obtain ⟨_, hlast, h⟩ := bind_eq_ok.1 h
    split at h
    · cases h
    next hnone =>
    cases h
    exact ⟨⟨not_not.1 hstatus, ⟨checkNumber_eq_ok_iff.1 hfirst, checkNumber_eq_ok_iff.1 hlast⟩,
      hfree.1 hnone⟩, rfl⟩
  · rintro ⟨⟨hstatus, ⟨hfirst, hlast⟩, hnone⟩, rfl⟩
    unfold recordRequest
    rw [if_neg (not_not.2 hstatus), checkNumber_eq_ok_iff.2 hfirst, checkNumber_eq_ok_iff.2 hlast]
    show (if _ then _ else _) = _
    rw [if_neg (hfree.2 hnone)]
    rfl

theorem recordRequest_turn {r : ReplenishmentRequest} (h : s.recordRequest r = .ok t) :
    Turn now tokens [r.series] s t := by
  obtain ⟨⟨-, hbounds, hfresh, halone⟩, rfl⟩ := recordRequest_eq_ok_iff.1 h
  exact .record rfl hbounds hfresh halone (List.mem_singleton_self _)

theorem resolve_turn {trackingId : String} {state : RequestState} (hfinal : state ≠ .pending)
    (h : s.resolve trackingId state = .ok t) : Turn now tokens entered s t := by
  unfold resolve at h
  split at h
  · cases h
    exact .resolve trackingId hfinal
  · split at h <;> cases h

theorem markAccepted_turn {trackingId rangeId : String} {clock : Instant}
    (h : s.markAccepted trackingId rangeId clock = .ok t) : Turn now tokens entered s t :=
  resolve_turn (by simp) h

theorem markRejected_turn {trackingId reason : String} {clock : Instant}
    (h : s.markRejected trackingId reason clock = .ok t) : Turn now tokens entered s t :=
  resolve_turn (by simp) h

theorem markTimedOut_turn {trackingId : String} {clock : Instant}
    (h : s.markTimedOut trackingId clock = .ok t) : Turn now tokens entered s t :=
  resolve_turn (by simp) h

/-! ## Leases -/

/-- A lock is taken under a greater number, or found busy. -/
theorem acquire_cases (s : Store) (now : Instant) (ttl : Nat) (token key : String) :
    (∃ fencing, (s.lock? key = none ∧ fencing = 1 ∨ ∃ row, s.lock? key = some row ∧
        Lock.isExpired row.deadline now.toMillis = true ∧ fencing = row.fencing + 1) ∧
      s.acquire now ttl token key =
        ((Instant.ofMillis (Lock.deadline now.toMillis ttl)).map fun t =>
            (⟨key, token, fencing, t⟩ : Lease),
          s.putLock ⟨key, token, fencing, Lock.deadline now.toMillis ttl⟩)) ∨
    (∃ row, s.lock? key = some row ∧ Lock.isExpired row.deadline now.toMillis = false) ∧
      s.acquire now ttl token key = (.error (.lockBusy key), s) := by
  unfold acquire
  cases hrow : s.lock? key with
  | none => exact .inl ⟨1, .inl ⟨rfl, rfl⟩, rfl⟩
  | some row =>
    simp only
    cases hexpired : Lock.isExpired row.deadline now.toMillis with
    | true => exact .inl ⟨row.fencing + 1, .inr ⟨row, rfl, hexpired, rfl⟩, rfl⟩
    | false => exact .inr ⟨⟨row, rfl, hexpired⟩, rfl⟩

/-- A lease is given for a lock that is free, and up to a deadline that can be read back. -/
theorem acquire_eq_ok {ttl : Nat} {token key : String} {lease : Lease}
    (h : s.acquire now ttl token key = (.ok lease, t)) :
    (∀ row, s.lock? key = some row → Lock.isExpired row.deadline now.toMillis = true) ∧
      ∃ fencing deadline, Instant.ofMillis (Lock.deadline now.toMillis ttl) = .ok deadline ∧
        lease = ⟨key, token, fencing, deadline⟩ ∧
        t = s.putLock ⟨key, token, fencing, Lock.deadline now.toMillis ttl⟩ := by
  rcases s.acquire_cases now ttl token key with ⟨fencing, hfree, hres⟩ | ⟨-, hres⟩ <;> rw [h] at hres
  · obtain ⟨hlease, rfl⟩ := Prod.mk.inj hres
    obtain ⟨deadline, hdeadline, rfl⟩ := map_eq_ok.1 hlease.symm
    refine ⟨fun row hrow => ?_, fencing, deadline, hdeadline, rfl, rfl⟩
    rcases hfree with ⟨hnone, -⟩ | ⟨row', hrow', hexpired, -⟩
    · rw [hnone] at hrow
      cases hrow
    · obtain rfl := Option.some.inj (hrow'.symm.trans hrow)
      exact hexpired
  · cases hres

/-- A lease carries the token that was drawn for it. -/
theorem token_of_acquire {ttl : Nat} {token key : String} {lease : Lease}
    (h : s.acquire now ttl token key = (.ok lease, t)) : lease.token = token := by
  obtain ⟨-, _, _, -, rfl, -⟩ := acquire_eq_ok h
  rfl

/-- Renewing changes the deadline only. -/
theorem renew_eq_ok {ttl : Nat} {lease lease' : Lease}
    (h : s.renew now ttl lease = (.ok lease', t)) :
    lease' = { lease with deadline := lease'.deadline } := by
  simp only [renew] at h
  split at h
  · obtain ⟨d, -, rfl⟩ := map_eq_ok.1 (Prod.mk.inj h).1
    rfl
  · cases h

theorem token_of_renew {ttl : Nat} {lease lease' : Lease}
    (h : s.renew now ttl lease = (.ok lease', t)) : lease'.token = lease.token := by
  rw [renew_eq_ok h]

end Store

open Store

variable {now : Instant} {entered : List Series}

/-! ## Triggers -/

theorem Monitor.prepare_turns (m : Monitor) (s : Store) (now later : Instant) (token : String)
    (series : Series) (threshold : Nat) :
    Turns now [token] entered s (m.prepare s now later token series threshold).2 := by
  have hacquire : Turn now [token] entered s
      (s.acquire now m.lockTtl token (Lock.replenishment series)).2 :=
    .acquire m.lockTtl _ (List.mem_singleton_self token)
  refine prepare_store (.single hacquire) fun lease t h => ?_
  rw [h] at hacquire
  exact .tail (.single hacquire) (.release (List.mem_singleton.2 (token_of_acquire h)))

theorem Monitor.record_turn (s : Store) (draft : Draft) (answer : Except Failure String) :
    Turn now [draft.lease.token] [draft.request.series] s (Monitor.record s draft answer).2 := by
  unfold Monitor.record
  split
  · exact .release (List.mem_singleton_self _)
  · simp only
    split
    · next h => exact recordRequest_turn h
    · exact .release (List.mem_singleton_self _)

theorem Monitor.takeUp_turn (m : Monitor) (s : Store) (now : Instant) (token trackingId : String) :
    Turn now [token] entered s (m.takeUp s now token trackingId).2 := by
  unfold Monitor.takeUp
  split
  · exact .refl s
  · next request _ =>
    have hacquire : Turn now [token] entered s
        (s.acquire now m.lockTtl token (Lock.replenishment request.series)).2 :=
      .acquire m.lockTtl _ (List.mem_singleton_self token)
    split
    · exact .refl s
    · split
      · next h =>
        rw [h] at hacquire
        exact hacquire
      · next h =>
        rw [h] at hacquire
        exact hacquire

/-! ## Polls -/

namespace Poll

variable (p : Poll) (s : Store)

theorem tick_turns (m : Monitor) (now later : Instant) :
    Turns now [p.lease.token] entered s (p.tick m s now later).2.1 := by
  have hrenew : Turn now [p.lease.token] entered s (s.renew now m.lockTtl p.lease).2 :=
    .renew m.lockTtl (List.mem_singleton_self _)
  unfold tick
  split
  · next failure t h =>
    rw [h] at hrenew
    exact .tail (.single hrenew) (.release (List.mem_singleton_self _))
  · next lease t h =>
    have hmine : lease.token ∈ [p.lease.token] := List.mem_singleton.2 (token_of_renew h)
    rw [h] at hrenew
    simp only
    split
    · split
      · exact .tail (.single hrenew) (.release hmine)
      · next u hresolve =>
        exact .tail (.tail (.single hrenew) (markTimedOut_turn hresolve)) (.release hmine)
    · exact .single hrenew

theorem answered_turns (since : Instant) (answer : Except Failure AuthorityStatus) :
    Turns now [p.lease.token] entered s (p.answered s since answer).2.1 := by
  have hfinish : ∀ t : Store, Turn now [p.lease.token] entered t (t.release p.lease) := fun _ =>
    .release (List.mem_singleton_self _)
  unfold answered
  split
  · split
    · exact .refl
    · exact .single (hfinish s)
  · exact .refl
  · split
    · exact .single (hfinish s)
    · next t h => exact .tail (.single (markRejected_turn h)) (hfinish t)
  · exact .refl

theorem register_turn {tokens : List String} (m : Monitor) (faulty : Option Nat) (id : String)
    (clock : Instant) (new : NewRange) :
    Turn now tokens entered s (p.register m faulty s id clock new).2 := by
  unfold Poll.register
  split
  · next h => exact Store.register_turn h
  · split
    · exact .refl s
    · split <;> exact .refl s
  · exact .refl s

theorem accept_turns (clock : Instant) (range : Range) :
    Turns now [p.lease.token] entered s (p.accept s clock range).2 := by
  unfold accept
  split
  · exact .refl
  · next t h =>
    have hresolve : Turn now [p.lease.token] entered s t := markAccepted_turn h
    split <;> exact .tail (.single hresolve) (.release (List.mem_singleton_self _))

theorem reject_turns (clock : Instant) (failure : Failure) :
    Turns now [p.lease.token] entered s (p.reject s clock failure).2.1 := by
  unfold reject
  split
  · exact .single (.release (List.mem_singleton_self _))
  · next t h => exact .tail (.single (markRejected_turn h)) (.release (List.mem_singleton_self _))

theorem cancel_turn : Turn now [p.lease.token] entered s (p.cancel s).2 :=
  .release (List.mem_singleton_self _)

end Poll

/-! ## Events -/

theorem Desk.assign_turn (d : Desk) (s : Store) (clock : Instant) (series : Series)
    (document : Option String) {tokens : List String} :
    Turn now tokens entered s (d.assign s clock series document).2.1 := by
  unfold Desk.assign
  split
  · next h => exact Store.assign_turn h
  · exact .refl s

theorem Desk.void_turn (d : Desk) (s : Store) (clock : Instant) (series : Series) (number : Nat)
    (reason : String) {tokens : List String} :
    Turn now tokens entered s (d.void s clock series number reason).2.1 := by
  unfold Desk.void
  split
  · next h => exact Store.void_turn h
  · exact .refl s

theorem Watch.Moves.turn {clock : Instant} {tokens : List String} (h : Watch.Moves clock s t) :
    Turn now tokens entered s t := by
  cases h with
  | expire h => exact expire_turn h
  | mark id => exact .aside rfl rfl

theorem Watch.sweep_turns (w : Watch) (s : Store) (clock : Instant) {tokens : List String} :
    Turns now tokens entered s (w.sweep s clock).2.1 :=
  ReflTransGen.mono (fun _ _ hmove => hmove.turn) _ _ (w.sweep_moves s clock)

/-- Whatever an event does to requests and locks, it does in turns of its caller. -/
theorem Event.turns (s : Store) (e : Event) :
    Turns e.clock e.call.tokens e.call.entered s (s.after e) := by
  obtain ⟨clock, call⟩ := e
  cases call with
  | register => exact .single (keep_snd_of (.refl s) fun _ _ h => Store.register_turn h)
  | assign desk series document => exact .single (desk.assign_turn s clock series document)
  | void desk series number reason =>
    exact .single (desk.void_turn s clock series number reason)
  | bind => exact .single (keep_snd_of (.refl s) fun _ _ h => bind_turn h)
  | expire => exact .single (keep_snd_of (.refl s) fun _ _ h => expire_turn h)
  | markNearExpiry => exact .single (.aside rfl rfl)
  | recordRequest => exact .single (keep_of (.refl s) fun _ h => recordRequest_turn h)
  | markAccepted => exact .single (keep_of (.refl s) fun _ h => markAccepted_turn h)
  | markRejected => exact .single (keep_of (.refl s) fun _ h => markRejected_turn h)
  | markTimedOut => exact .single (keep_of (.refl s) fun _ h => markTimedOut_turn h)
  | acquire ttl token key => exact .single (.acquire ttl key (List.mem_singleton_self token))
  | renew ttl lease => exact .single (.renew ttl (List.mem_singleton_self _))
  | release lease => exact .single (.release (List.mem_singleton_self _))
  | sweep watch moment => exact watch.sweep_turns s moment
  | prepare monitor later token series threshold =>
    exact monitor.prepare_turns s clock later token series threshold
  | record draft answer => exact .single (Monitor.record_turn s draft answer)
  | takeUp monitor token trackingId => exact .single (monitor.takeUp_turn s clock token trackingId)
  | tick monitor poll later => exact poll.tick_turns s monitor clock later
  | answered poll since answer => exact poll.answered_turns s since answer
  | ingest monitor faulty id poll new =>
    exact .single (poll.register_turn s monitor faulty id clock new)
  | accept poll range => exact poll.accept_turns s clock range
  | reject poll failure => exact poll.reject_turns s clock failure
  | cancel poll => exact .single (poll.cancel_turn s)

end FolioLedger
