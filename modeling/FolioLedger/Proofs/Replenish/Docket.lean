import FolioLedger.Proofs.Ledger.Deeds
import FolioLedger.Proofs.Replenish.Turns
import FolioLedger.Proofs.Time.Instant
import Mathlib.Data.List.Nodup

/-!
# The docket

The table of requests is a docket: one event enters one request that is pending, or resolves the
pending requests with one tracking id, or leaves the docket alone.  `Event.resolved` says what an
event would resolve a request as, and `Event.docket` that it does nothing else.
-/

namespace FolioLedger

open Store

/-- What an event may resolve a request as. -/
def Event.resolved (e : Event) : List (String × RequestState) :=
  match e.call with
  | .markAccepted trackingId rangeId moment => [(trackingId, .accepted rangeId moment.toMillis)]
  | .markRejected trackingId reason moment => [(trackingId, .rejected reason moment.toMillis)]
  | .markTimedOut trackingId moment => [(trackingId, .timedOut moment.toMillis)]
  | .tick _ poll later =>
    if poll.deadline ≤ later then [(poll.request.trackingId, .timedOut later.toMillis)] else []
  | .answered poll since (.ok (.rejected reason)) =>
    [(poll.request.trackingId, .rejected reason since.toMillis)]
  | .accept poll range => [(poll.request.trackingId, .accepted range.id e.clock.toMillis)]
  | .reject poll failure =>
    [(poll.request.trackingId, .rejected failure.message e.clock.toMillis)]
  | _ => []

/-- A request is accepted by those who say so, and by polls that ingested. -/
theorem Event.accepted_of_resolved {e : Event} {trackingId id : String} {since : Millis}
    (h : (trackingId, .accepted id since) ∈ e.resolved) :
    (∃ moment, e.call = .markAccepted trackingId id moment) ∨
      ∃ poll range, e.call = .accept poll range ∧ poll.request.trackingId = trackingId ∧
        range.id = id := by
  obtain ⟨clock, call⟩ := e
  simp only [Event.resolved] at h
  split at h <;> simp_all

/-- Resolves the pending requests with a tracking id. -/
def resolveRows (rows : List RequestRow) (trackingId : String) (state : RequestState) :
    List RequestRow :=
  rows.map fun r => if r.trackingId = trackingId ∧ r.isPending then { r with state := state } else r

/-- What an event that resolves requests in some ways does to the docket. -/
inductive Docket (resolved : List (String × RequestState)) :
    List RequestRow → List RequestRow → Prop where
  | same {rows : List RequestRow} : Docket resolved rows rows
  | enter {rows : List RequestRow} {r : RequestRow} (pending : r.state = .pending)
      (fresh : ∀ q ∈ rows, q.trackingId ≠ r.trackingId) : Docket resolved rows (rows ++ [r])
  | resolve {rows : List RequestRow} {trackingId : String} {state : RequestState}
      (mem : (trackingId, state) ∈ resolved) (final : state ≠ .pending) :
      Docket resolved rows (resolveRows rows trackingId state)

namespace Docket

variable {resolved : List (String × RequestState)} {rows rows' : List RequestRow}
  {s t : Store}

theorem of_eq (h : rows' = rows) : Docket resolved rows rows' := h ▸ .same

theorem of_resolve {trackingId : String} {state : RequestState}
    (mem : (trackingId, state) ∈ resolved) (final : state ≠ .pending)
    (h : s.resolve trackingId state = .ok t) : Docket resolved s.requests t.requests := by
  unfold Store.resolve at h
  split at h
  · cases h
    exact .resolve mem final
  · split at h <;> cases h

theorem of_record {r : ReplenishmentRequest} (h : s.recordRequest r = .ok t) :
    Docket resolved s.requests t.requests := by
  obtain ⟨⟨-, -, hfresh, -⟩, rfl⟩ := recordRequest_eq_ok_iff.1 h
  exact .enter rfl hfresh

theorem keep {res : Except Failure Store}
    (h : ∀ t, res = .ok t → Docket resolved s.requests t.requests) :
    Docket resolved s.requests (s.keep res).requests :=
  keep_of (P := fun t => Docket resolved s.requests t.requests) .same h

/-- Tracking ids stay apart. -/
theorem nodup (h : Docket resolved rows rows') (hids : (rows.map (·.trackingId)).Nodup) :
    (rows'.map (·.trackingId)).Nodup := by
  cases h with
  | same => exact hids
  | enter _ fresh =>
    rw [List.map_append, List.nodup_append]
    refine ⟨hids, by simp, fun a ha b hb => ?_⟩
    obtain ⟨q, hq, rfl⟩ := List.mem_map.1 ha
    obtain rfl : b = _ := List.mem_singleton.1 hb
    exact fresh q hq
  | resolve =>
    have hsame : ∀ trackingId state, (resolveRows rows trackingId state).map (·.trackingId) =
        rows.map (·.trackingId) := by
      intro trackingId state
      rw [resolveRows, List.map_map]
      refine List.map_congr_left fun r _ => ?_
      simp only [Function.comp_apply]
      split <;> rfl
    rw [hsame]
    exact hids

/-- A request that is there was there before, as it is or pending, or it was entered now. -/
theorem origin (h : Docket resolved rows rows') {r' : RequestRow} (hr' : r' ∈ rows') :
    r' ∈ rows ∨ (r'.state = .pending ∧ ∀ q ∈ rows, q.trackingId ≠ r'.trackingId) ∨
      ∃ r ∈ rows, r.state = .pending ∧ r' = { r with state := r'.state } ∧
        (r'.trackingId, r'.state) ∈ resolved := by
  cases h with
  | same => exact .inl hr'
  | enter pending fresh =>
    rcases List.mem_append.1 hr' with hold | hnew
    · exact .inl hold
    · obtain rfl := List.mem_singleton.1 hnew
      exact .inr (.inl ⟨pending, fresh⟩)
  | resolve mem =>
    obtain ⟨r, hr, rfl⟩ := List.mem_map.1 hr'
    split
    · next hmeets =>
      exact .inr (.inr ⟨r, hr, by simpa [RequestRow.isPending] using hmeets.2, rfl,
        by rw [hmeets.1]; exact mem⟩)
    · exact .inl hr

end Docket

/-! ## Looking up requests -/

def ReplenishmentRequest.scope (r : ReplenishmentRequest) : RangeRequest := ⟨r.series, r.first, r.last⟩

def RequestRow.scope (r : RequestRow) : RangeRequest := ⟨r.series, r.first, r.last⟩

theorem RequestRow.toRequest_eq_ok {r : RequestRow} {d : ReplenishmentRequest}
    (h : r.toRequest = .ok d) : d.trackingId = r.trackingId ∧ d.scope = r.scope ∧
      Instant.ofMillis r.requestedAt = .ok d.requestedAt := by
  unfold toRequest at h
  obtain ⟨requestedAt, hrequestedAt, h⟩ := bind_eq_ok.1 h
  obtain ⟨_, -, h⟩ := bind_eq_ok.1 h
  cases h
  exact ⟨rfl, rfl, hrequestedAt⟩

/-- An accepted request can be read back if its times can. -/
theorem RequestRow.toRequest_accepted_iff (row : RequestRow) {id : String} {resolved : Instant}
    (h : row.state = .accepted id resolved.toMillis) : (∃ done, row.toRequest = .ok done) ↔
      (∃ t, Instant.ofMillis row.requestedAt = .ok t) ∧ resolved.Readable := by
  have hresolved : row.state.resolvedAt = some resolved.toMillis := by rw [h]; rfl
  constructor
  · rintro ⟨done, hdone⟩
    unfold toRequest at hdone
    obtain ⟨requestedAt, hrequested, hdone⟩ := bind_eq_ok.1 hdone
    obtain ⟨resolvedAt, hread, -⟩ := bind_eq_ok.1 hdone
    rw [hresolved, Option.mapM_some] at hread
    obtain ⟨t, ht, -⟩ := map_eq_ok.1 hread
    exact ⟨⟨requestedAt, hrequested⟩, t, ht⟩
  · rintro ⟨⟨requestedAt, hrequested⟩, resolvedAt, hread⟩
    simp only [toRequest, hrequested, hresolved, Option.mapM_some, hread]
    exact ⟨_, rfl⟩

theorem RequestRow.toRequest_state {row : RequestRow} {done : ReplenishmentRequest}
    (h : row.toRequest = .ok done) : done.status = row.state.status ∧ done.rangeId = row.state.rangeId := by
  unfold toRequest at h
  obtain ⟨_, -, h⟩ := bind_eq_ok.1 h
  obtain ⟨_, -, h⟩ := bind_eq_ok.1 h
  cases h
  exact ⟨rfl, rfl⟩

namespace Store

variable {s t : Store} {trackingId : String} {row : RequestRow}

theorem request?_congr (h : t.requests = s.requests) (trackingId : String) :
    t.request? trackingId = s.request? trackingId := by
  unfold request?
  rw [h]

theorem request?_eq_some (h : s.request? trackingId = some row) :
    row ∈ s.requests ∧ row.trackingId = trackingId := by
  have hid := List.find?_some h
  exact ⟨List.mem_of_find?_eq_some h, by simpa using hid⟩

theorem request?_of_mem (h : (s.requests.map (·.trackingId)).Nodup) (hrow : row ∈ s.requests) :
    s.request? row.trackingId = some row := by
  cases hfound : s.request? row.trackingId with
  | none => simpa using List.find?_eq_none.1 hfound row hrow
  | some row' =>
    obtain ⟨hrow', hid⟩ := request?_eq_some hfound
    rw [List.inj_on_of_nodup_map h hrow' hrow hid]

theorem find?_resolveRows (rows : List RequestRow) (trackingId trackingId' : String)
    (state : RequestState) :
    (resolveRows rows trackingId state).find? (·.trackingId = trackingId') =
      (rows.find? (·.trackingId = trackingId')).map fun r =>
        if r.trackingId = trackingId ∧ r.isPending then { r with state := state } else r := by
  have hkeep : ((fun r : RequestRow => decide (r.trackingId = trackingId')) ∘ fun r =>
      if r.trackingId = trackingId ∧ r.isPending = true then { r with state := state } else r) =
      fun r => decide (r.trackingId = trackingId') := by
    funext r
    simp only [Function.comp_apply]
    split <;> rfl
  rw [resolveRows, List.find?_map, hkeep]

/-- A pending request can be resolved, and is found as it was resolved. -/
theorem resolve_of_pending (hrow : s.request? trackingId = some row)
    (hpending : row.state = .pending) (state : RequestState) :
    ∃ t, s.resolve trackingId state = .ok t ∧
      t.request? trackingId = some { row with state := state } := by
  obtain ⟨hmem, hid⟩ := request?_eq_some hrow
  have hmeets : row.trackingId = trackingId ∧ row.isPending = true :=
    ⟨hid, by simp [RequestRow.isPending, hpending]⟩
  have hany : s.requests.any fun r => r.trackingId = trackingId ∧ r.isPending :=
    List.any_eq_true.2 ⟨row, hmem, by simpa using hmeets⟩
  refine ⟨_, if_pos hany, ?_⟩
  have hfound : (resolveRows s.requests trackingId state).find? (·.trackingId = trackingId) =
      some { row with state := state } := by
    unfold request? at hrow
    rw [find?_resolveRows, hrow, Option.map_some, if_pos hmeets]
  exact hfound

end Store

/-! ## Operations that leave the docket alone -/

theorem Monitor.prepare_requests (m : Monitor) (s : Store) (now later : Instant)
    (token : String) (series : Series) (threshold : Nat) :
    (m.prepare s now later token series threshold).2.requests = s.requests := by
  have hacquire := s.acquire_requests now m.lockTtl token (Lock.replenishment series)
  refine Monitor.prepare_store (P := fun t => t.requests = s.requests) hacquire fun lease t h => ?_
  rw [h] at hacquire
  exact hacquire

theorem Monitor.takeUp_requests (m : Monitor) (s : Store) (now : Instant)
    (token trackingId : String) : (m.takeUp s now token trackingId).2.requests = s.requests := by
  unfold Monitor.takeUp
  split
  · rfl
  · next request _ =>
    have hacquire := s.acquire_requests now m.lockTtl token (Lock.replenishment request.series)
    split
    · rfl
    · split <;> simp_all

/-! ## Operations on the docket -/

theorem Monitor.record_docket (s : Store) (draft : Draft) (answer : Except Failure String)
    {resolved : List (String × RequestState)} :
    Docket resolved s.requests (Monitor.record s draft answer).2.requests := by
  unfold Monitor.record
  split
  · exact .same
  · simp only
    split
    · next h => exact .of_record h
    · exact .same

namespace Poll

variable (p : Poll) (s : Store)

theorem tick_docket (e : Event) (m : Monitor) (later : Instant) (h : e.call = .tick m p later) :
    Docket e.resolved s.requests (p.tick m s e.clock later).2.1.requests := by
  have hrenew := s.renew_requests e.clock m.lockTtl p.lease
  unfold tick
  split
  · next failure t hfailed =>
    rw [hfailed] at hrenew
    exact .of_eq hrenew
  · next lease t hrenewed =>
    rw [hrenewed] at hrenew
    simp only at hrenew ⊢
    split
    · next hlate =>
      split
      · exact .of_eq hrenew
      · next u hresolve =>
        rw [← hrenew]
        have hclosed : Docket e.resolved t.requests u.requests := by
          refine .of_resolve ?_ (by simp) (show t.resolve _ (.timedOut _) = _ from hresolve)
          simp [Event.resolved, h, hlate]
        exact hclosed
    · exact .of_eq hrenew

theorem answered_docket (e : Event) (since : Instant) (answer : Except Failure AuthorityStatus)
    (h : e.call = .answered p since answer) :
    Docket e.resolved s.requests (p.answered s since answer).2.1.requests := by
  unfold answered
  split
  · split <;> exact .same
  · exact .same
  · next reason =>
    split
    · exact .same
    · next t hresolve =>
      have hclosed : Docket e.resolved s.requests t.requests := by
        refine .of_resolve ?_ (by simp) (show s.resolve _ (.rejected _ _) = _ from hresolve)
        simp [Event.resolved, h]
      exact hclosed
  · exact .same

theorem accept_docket (now : Instant) (range : Range) :
    Docket [(p.request.trackingId, .accepted range.id now.toMillis)] s.requests
      (p.accept s now range).2.requests := by
  unfold accept
  split
  · exact .same
  · next t h =>
    have hresolve : Docket [(p.request.trackingId, .accepted range.id now.toMillis)] s.requests
        t.requests := .of_resolve (List.mem_singleton_self _) (by simp) h
    split <;> exact hresolve

theorem reject_docket (now : Instant) (failure : Failure) :
    Docket [(p.request.trackingId, .rejected failure.message now.toMillis)] s.requests
      (p.reject s now failure).2.1.requests := by
  unfold reject
  split
  · exact .same
  · next t h =>
    have hresolve : Docket [(p.request.trackingId, .rejected failure.message now.toMillis)]
        s.requests t.requests := .of_resolve (List.mem_singleton_self _) (by simp) h
    exact hresolve

end Poll

/-- An event does one thing to the docket: what it says it may do. -/
theorem Event.docket (s : Store) (e : Event) :
    Docket e.resolved s.requests (s.after e).requests := by
  obtain ⟨clock, call⟩ := e
  cases call with
  | recordRequest => exact .keep fun _ h => .of_record h
  | markAccepted =>
    exact .keep fun _ h => .of_resolve (List.mem_singleton_self _) (by simp) h
  | markRejected =>
    exact .keep fun _ h => .of_resolve (List.mem_singleton_self _) (by simp) h
  | markTimedOut =>
    exact .keep fun _ h => .of_resolve (List.mem_singleton_self _) (by simp) h
  | record draft answer => exact Monitor.record_docket s draft answer
  | tick monitor poll later => exact poll.tick_docket s _ monitor later rfl
  | answered poll since answer => exact poll.answered_docket s _ since answer rfl
  | accept poll range => exact poll.accept_docket s clock range
  | reject poll failure => exact poll.reject_docket s clock failure
  | prepare monitor later token series threshold =>
    exact .of_eq (monitor.prepare_requests s clock later token series threshold)
  | takeUp monitor token trackingId =>
    exact .of_eq (monitor.takeUp_requests s clock token trackingId)
  | acquire ttl token key => exact .of_eq (s.acquire_requests clock ttl token key)
  | renew ttl lease => exact .of_eq (s.renew_requests clock ttl lease)
  | register =>
    exact keep_snd_of (P := fun t => Docket _ s.requests t.requests) .same fun _ _ h =>
      .of_eq (register_registers h).requests
  | ingest monitor faulty id poll new =>
    exact .of_eq (poll.register_requests s monitor faulty id clock new)
  | assign desk series document =>
    exact .of_eq (desk.assign_inStates s clock series document).requests
  | void desk series number reason =>
    exact .of_eq (desk.void_inStates s clock series number reason).requests
  | bind => exact .of_eq (keep_snd_of (InStates.refl s) fun _ _ h => .bind h).requests
  | expire => exact .of_eq (keep_snd_of (InStates.refl s) fun _ _ h => .expire h).requests
  | sweep watch moment => exact .of_eq (watch.sweep_inStates s moment).requests
  | markNearExpiry => exact .same
  | release => exact .same
  | cancel => exact .same

/-- A request that an event does not resolve is found as it was. -/
theorem Store.request?_after {s : Store} {trackingId : String} {row : RequestRow}
    (hrow : s.request? trackingId = some row) {e : Event}
    (hspares : ∀ r ∈ e.resolved, r.1 ≠ trackingId) :
    (s.after e).request? trackingId = some row := by
  have hid := (request?_eq_some hrow).2
  unfold request? at hrow ⊢
  generalize hrows : (s.after e).requests = rows
  have hdocket := e.docket s
  rw [hrows] at hdocket
  cases hdocket with
  | same => exact hrow
  | enter => rw [List.find?_append, hrow, Option.some_or]
  | resolve mem =>
    rw [find?_resolveRows, hrow, Option.map_some, if_neg fun hmeets =>
      hspares _ mem (hmeets.1.symm.trans hid)]

end FolioLedger
