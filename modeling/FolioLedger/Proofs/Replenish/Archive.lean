import FolioLedger.Proofs.Ledger.Atomicity
import FolioLedger.Proofs.Replenish.Docket
import FolioLedger.Proofs.Replenish.Held

/-!
# The archive of requests

The table of requests is an archive.  `Event.requests_after` says that an event changes it by one
insertion or one resolution that succeeds, or not at all, and everything else follows from that: the
keys of the table (`Store.Filed.run`), that a row stays and is closed once
(`Store.closings_eq`), and that whatever fails leaves no trace.  The theorem is
`Store.archive_sound`.
-/

namespace FolioLedger

open Relation

/-- The requests that an event may enter in the table. -/
def Event.inserted (e : Event) : List ReplenishmentRequest :=
  match e.call with
  | .recordRequest r => [r]
  | .record draft (.ok trackingId) => [Monitor.recordOf draft trackingId]
  | _ => []

/-- Nothing is reopened. -/
theorem Event.final_of_resolved {e : Event} {c : String × RequestState} (h : c ∈ e.resolved) :
    c.2 ≠ .pending := by
  obtain ⟨clock, call⟩ := e
  simp only [Event.resolved] at h
  split at h <;> simp_all

/-! ## Columns -/

/-- Which columns of a request are set, by its status. -/
structure RequestStatus.Fills (status : RequestStatus) (reason rangeId : Option String)
    {Time : Type} (resolvedAt : Option Time) : Prop where
  resolvedAt : resolvedAt.isSome ↔ status ≠ .pending
  rangeId : rangeId.isSome ↔ status = .accepted
  reason : reason.isSome ↔ status = .rejected

theorem RequestState.fills (st : RequestState) :
    st.status.Fills st.reason st.rangeId st.resolvedAt := by
  cases st <;> constructor <;> simp [status, reason, rangeId, resolvedAt]

theorem RequestRow.fills_of_toRequest {r : RequestRow} {d : ReplenishmentRequest}
    (h : r.toRequest = .ok d) : d.status.Fills d.reason d.rangeId d.resolvedAt := by
  have hrow := r.state.fills
  unfold toRequest at h
  obtain ⟨_, -, h⟩ := bind_eq_ok.1 h
  obtain ⟨_, hresolvedAt, h⟩ := bind_eq_ok.1 h
  cases h
  exact ⟨by rw [isSome_of_mapM hresolvedAt]; exact hrow.resolvedAt, hrow.rangeId, hrow.reason⟩

namespace Store

variable {s t : Store} {trackingId : String} {row : RequestRow}

/-! ## What an event does to the table -/

theorem resolve_eq_ok {state : RequestState} (h : s.resolve trackingId state = .ok t) :
    t = { s with requests := resolveRows s.requests trackingId state } := by
  unfold resolve at h
  split at h
  · cases h
    rfl
  · split at h <;> cases h

/-- Resolving does something exactly if a request with the tracking id is pending. -/
theorem exists_resolve_iff (state : RequestState) :
    (∃ t, s.resolve trackingId state = .ok t) ↔
      ∃ r ∈ s.requests, r.trackingId = trackingId ∧ r.state = .pending := by
  unfold resolve
  constructor
  · rintro ⟨t, h⟩
    split at h
    · next hany =>
      obtain ⟨r, hr, hmeets⟩ := List.any_eq_true.1 hany
      exact ⟨r, hr, by simpa [RequestRow.isPending] using hmeets⟩
    · split at h <;> cases h
  · rintro ⟨r, hr, hid, hpending⟩
    have hany : s.requests.any fun r => r.trackingId = trackingId ∧ r.isPending :=
      List.any_eq_true.2 ⟨r, hr, by simp [RequestRow.isPending, hid, hpending]⟩
    exact ⟨_, if_pos hany⟩

theorem resolveRows_of_none (state : RequestState)
    (h : ¬ ∃ r ∈ s.requests, r.trackingId = trackingId ∧ r.state = .pending) :
    resolveRows s.requests trackingId state = s.requests := by
  refine (List.map_congr_left fun r hr => if_neg fun hmeets => ?_).trans (List.map_id _)
  exact h ⟨r, hr, by simpa [RequestRow.isPending] using hmeets⟩

/-- Only who records a request enters a row. -/
theorem requests_after_of_entered {e : Event} {series : Series} (h : series ∈ e.call.entered) :
    (s.after e).requests = s.requests ∨
      ∃ r ∈ e.inserted, ∃ t, s.recordRequest r = .ok t ∧ (s.after e).requests = t.requests := by
  obtain ⟨clock, call⟩ := e
  cases call with
  | recordRequest r =>
    cases hrecord : s.recordRequest r with
    | ok t => exact .inr ⟨r, List.mem_singleton_self r, t, hrecord, by simp [after, keep, hrecord]⟩
    | error failure => exact .inl (by simp [after, keep, hrecord])
  | record draft answer =>
    cases answer with
    | error failure => exact .inl rfl
    | ok trackingId =>
      simp only [after, Monitor.record]
      cases hrecord : s.recordRequest (Monitor.recordOf draft trackingId) with
      | ok t => exact .inr ⟨_, List.mem_singleton_self _, t, hrecord, rfl⟩
      | error failure => exact .inl rfl
  | _ => cases h

/-- An event enters one request or resolves one, as the record of requests does it, or leaves the
table alone. -/
theorem requests_after (s : Store) (e : Event) :
    (s.after e).requests = s.requests ∨
    (∃ r ∈ e.inserted, ∃ t, s.recordRequest r = .ok t ∧ (s.after e).requests = t.requests) ∨
    ∃ c ∈ e.resolved, ∃ t, s.resolve c.1 c.2 = .ok t ∧ (s.after e).requests = t.requests := by
  have hdocket := e.docket s
  generalize hrows : (s.after e).requests = rows at hdocket
  cases hdocket with
  | same => exact .inl rfl
  | @enter r pending fresh =>
    have hmem : r ∈ (s.after e).requests := by simp [hrows]
    rcases Turns.mem_or_entered (e.turns s) hmem pending with hold | hnew
    · exact absurd rfl (fresh r hold)
    · rcases requests_after_of_entered (s := s) hnew with hsame | hinserted
      · exact .inl (hrows.symm.trans hsame)
      · exact .inr (.inl (hrows ▸ hinserted))
  | @resolve trackingId state mem =>
    by_cases hopen : ∃ r ∈ s.requests, r.trackingId = trackingId ∧ r.state = .pending
    · obtain ⟨t, ht⟩ := (exists_resolve_iff state).2 hopen
      exact .inr (.inr ⟨_, mem, t, ht, by rw [resolve_eq_ok ht]⟩)
    · exact .inl (resolveRows_of_none state hopen)

/-! ## Keys -/

/-- The keys of the table: a tracking id has one row, and a series one pending request. -/
structure Filed (s : Store) : Prop where
  apart : (s.requests.map (·.trackingId)).Nodup
  alone : ∀ series, s.requests.countP (fun r => r.series = series ∧ r.isPending) ≤ 1

namespace Filed

theorem of_eq (h : s.Filed) (hsame : t.requests = s.requests) : t.Filed :=
  ⟨hsame ▸ h.apart, hsame ▸ h.alone⟩

theorem record (h : s.Filed) {r : ReplenishmentRequest} (hrecord : s.recordRequest r = .ok t) :
    t.Filed := by
  have hdocket : Docket [] s.requests t.requests := .of_record hrecord
  refine ⟨hdocket.nodup h.apart, fun series => ?_⟩
  obtain ⟨⟨-, -, -, halone⟩, rfl⟩ := recordRequest_eq_ok_iff.1 hrecord
  rw [List.countP_append, List.countP_singleton]
  split
  · next hmine =>
    have hnone : s.requests.countP (fun q => q.series = series ∧ q.isPending) = 0 := by
      rw [List.countP_eq_zero]
      intro q hq hpending
      simp only [RequestRow.isPending, decide_eq_true_eq, beq_iff_eq] at hmine hpending
      exact halone q hq (hpending.1.trans hmine.1.symm) hpending.2
    omega
  · exact h.alone series

theorem resolve (h : s.Filed) {state : RequestState} (hfinal : state ≠ .pending)
    (hresolve : s.resolve trackingId state = .ok t) : t.Filed := by
  refine ⟨(Docket.of_resolve (List.mem_singleton_self _) hfinal hresolve).nodup h.apart,
    fun series => ?_⟩
  rw [resolve_eq_ok hresolve]
  show (resolveRows s.requests trackingId state).countP _ ≤ 1
  unfold resolveRows
  rw [List.countP_map]
  -- Whoever is pending afterwards was so before.
  refine Nat.le_trans (List.countP_mono_left fun r hr hpending => ?_) (h.alone series)
  simp only [Function.comp_apply] at hpending
  split at hpending
  · simp [RequestRow.isPending, hfinal] at hpending
  · exact hpending

theorem after (h : s.Filed) (e : Event) : (s.after e).Filed := by
  rcases s.requests_after e with hsame | ⟨r, -, t, hrecord, ht⟩ | ⟨c, hc, t, hresolve, ht⟩
  · exact h.of_eq hsame
  · exact (h.record hrecord).of_eq ht
  · exact (h.resolve (Event.final_of_resolved hc) hresolve).of_eq ht

theorem run (h : s.Filed) (es : List Event) : (s.run es).Filed := by
  induction es generalizing s with
  | nil => exact h
  | cons e es ih => exact ih (h.after e)

end Filed

/-! ## Closing a request -/

/-- A request that an event enters is pending. -/
theorem pending_of_request?_after (hnone : s.request? trackingId = none) {e : Event}
    (hrow : (s.after e).request? trackingId = some row) : row.state = .pending := by
  obtain ⟨hmem, hid⟩ := request?_eq_some hrow
  have habsent : ∀ r ∈ s.requests, r.trackingId ≠ trackingId := by
    simpa [request?, List.find?_eq_none] using hnone
  rcases (e.docket s).origin hmem with hold | ⟨hpending, -⟩ | ⟨r, hr, -, heq, -⟩
  · exact absurd hid (habsent row hold)
  · exact hpending
  · rw [heq] at hid
    exact absurd hid (habsent r hr)

/-- A request that is there stays, as it is or resolved. -/
theorem request?_after_kept (hrow : s.request? trackingId = some row) (e : Event) :
    ∃ row', (s.after e).request? trackingId = some row' ∧ row.Kept row' := by
  have hdocket := e.docket s
  unfold request? at hrow ⊢
  generalize (s.after e).requests = rows at hdocket ⊢
  cases hdocket with
  | same => exact ⟨row, hrow, .refl row⟩
  | enter => exact ⟨row, by rw [List.find?_append, hrow, Option.some_or], .refl row⟩
  | resolve =>
    rw [find?_resolveRows, hrow, Option.map_some]
    refine ⟨_, rfl, ?_⟩
    split
    · next hmeets => exact ⟨rfl, .inr (by simpa [RequestRow.isPending] using hmeets.2)⟩
    · exact .refl row

/-- What a request is closed as. -/
def closing (s : Store) (trackingId : String) : List RequestState :=
  match s.request? trackingId with
  | some row => if row.isPending then [] else [row.state]
  | none => []

/-- What an event closes an open request as. -/
def closes (s : Store) (trackingId : String) (e : Event) : List RequestState :=
  match s.request? trackingId with
  | some row => if row.isPending then (s.after e).closing trackingId else []
  | none => []

/-- What the events of a run close a request as, in order. -/
def closings (trackingId : String) : Store → List Event → List RequestState
  | _, [] => []
  | s, e :: es => s.closes trackingId e ++ closings trackingId (s.after e) es

theorem length_closing_le (s : Store) (trackingId : String) :
    (s.closing trackingId).length ≤ 1 := by
  unfold closing
  split
  · split <;> simp
  · simp

theorem closing_after (s : Store) (trackingId : String) (e : Event) :
    s.closing trackingId ++ s.closes trackingId e = (s.after e).closing trackingId := by
  cases hrow : s.request? trackingId with
  | none =>
    have hopen : (s.after e).closing trackingId = [] := by
      unfold closing
      cases hafter : (s.after e).request? trackingId with
      | none => rfl
      | some row =>
        have hpending := pending_of_request?_after hrow hafter
        simp [RequestRow.isPending, hpending]
    rw [hopen]
    simp [closing, closes, hrow]
  | some row =>
    by_cases hpending : row.isPending
    · simp [closing, closes, hrow, hpending]
    · -- A closed request is found as it was.
      obtain ⟨row', hrow', hkept⟩ := request?_after_kept hrow e
      have hstate : row'.state = row.state :=
        hkept.state.resolve_right fun h => hpending (by simp [RequestRow.isPending, h])
      obtain rfl : row' = row := by rw [hkept.rest, hstate]
      simp [closing, closes, hrow, hrow', hpending]

/-- All that a run does to close a request shows in what it is closed as. -/
theorem closings_eq (s : Store) (trackingId : String) (es : List Event) :
    s.closing trackingId ++ closings trackingId s es = (s.run es).closing trackingId := by
  induction es generalizing s with
  | nil => simp [closings]
  | cons e es ih =>
    rw [closings, ← List.append_assoc, closing_after]
    exact ih (s.after e)

/-! ## Failures -/

theorem run_recordRequest_undone {r : ReplenishmentRequest} {o : Outbox} {failure : Failure}
    {σ : Scene} (h : (Session.recordRequest r).run ⟨s, o⟩ = (.error failure, σ)) : σ.store = s :=
  ((Session.recordRequest_carriesOut s r).allOrNothing_settled.undone o failure σ h).1

theorem run_resolve_undone {state : RequestState} {o : Outbox} {failure : Failure} {σ : Scene}
    (h : (Session.resolve trackingId state).run ⟨s, o⟩ = (.error failure, σ)) : σ.store = s :=
  ((Session.resolve_carriesOut s trackingId state).allOrNothing_settled.undone o failure σ h).1

/-- An event whose insertions and resolutions fail leaves the table alone. -/
theorem requests_after_of_failed {e : Event}
    (hinsert : ∀ r ∈ e.inserted, ∀ t, s.recordRequest r ≠ .ok t)
    (hresolve : ∀ c ∈ e.resolved, ∀ t, s.resolve c.1 c.2 ≠ .ok t) :
    (s.after e).requests = s.requests := by
  rcases s.requests_after e with hsame | ⟨r, hr, t, ht, -⟩ | ⟨c, hc, t, ht, -⟩
  · exact hsame
  · exact absurd ht (hinsert r hr t)
  · exact absurd ht (hresolve c hc t)

/-! ## The archive -/

/-- What the archive of requests keeps to, after a run that has come to a store. -/
structure Archive (es : List Event) (s : Store) : Prop extends s.Filed where
  rows : ∀ r ∈ s.requests, r.state.status.Fills r.state.reason r.state.rangeId r.state.resolvedAt
  documents : ∀ r ∈ s.requests, ∀ d, r.toRequest = .ok d →
    d.status.Fills d.reason d.rangeId d.resolvedAt
  /-- Whatever follows, a row stays, and a final one stays as it is. -/
  stays : ∀ fs, ∀ r ∈ s.requests, ∃ r' ∈ (s.run fs).requests,
    r' = { r with state := r'.state } ∧ (r.state ≠ .pending → r' = r)
  once : ∀ trackingId, (empty.closings trackingId es).length ≤ 1
  insertable : ∀ r, (∃ t, s.recordRequest r = .ok t) ↔
    r.status = .pending ∧ (r.first ≤ maxNumber ∧ r.last ≤ maxNumber) ∧
      (∀ q ∈ s.requests, q.trackingId ≠ r.trackingId) ∧
      ∀ q ∈ s.requests, q.series = r.series → q.state ≠ .pending
  resolvable : ∀ trackingId state, (∃ t, s.resolve trackingId state = .ok t) ↔
    ∃ r ∈ s.requests, r.trackingId = trackingId ∧ r.state = .pending
  /-- An insertion or a resolution that fails, statement by statement, leaves the whole store. -/
  insertion : ∀ r o failure σ,
    (Session.recordRequest r).run ⟨s, o⟩ = (.error failure, σ) → σ.store = s
  resolution : ∀ trackingId state o failure σ,
    (Session.resolve trackingId state).run ⟨s, o⟩ = (.error failure, σ) → σ.store = s
  /-- So does one inside a trigger or a poll leave the table. -/
  failing : ∀ e, (∀ r ∈ e.inserted, ∀ t, s.recordRequest r ≠ .ok t) →
    (∀ c ∈ e.resolved, ∀ t, s.resolve c.1 c.2 ≠ .ok t) → (s.after e).requests = s.requests

/-- After any run the archive of requests is in order. -/
theorem archive_sound (es : List Event) : Archive es (empty.run es) where
  toFiled := Filed.run ⟨by simp [empty], by simp [empty]⟩ es
  rows r _ := r.state.fills
  documents _ _ _ h := RequestRow.fills_of_toRequest h
  stays fs r hr := by
    obtain ⟨r', hr', hkept⟩ := KeepsRequests.run _ fs r hr
    refine ⟨r', hr', hkept.rest, fun hfinal => ?_⟩
    rw [hkept.rest, hkept.state.resolve_right hfinal]
  once trackingId := by
    have hall := closings_eq empty trackingId es
    rw [show empty.closing trackingId = [] from rfl, List.nil_append] at hall
    rw [hall]
    exact length_closing_le ..
  insertable r := by
    simp only [recordRequest_eq_ok_iff, exists_and_left, exists_eq, and_true]
  resolvable _ := exists_resolve_iff
  insertion _ _ _ _ h := run_recordRequest_undone h
  resolution _ _ _ _ _ h := run_resolve_undone h
  failing _ hinsert hresolve := requests_after_of_failed hinsert hresolve

end Store

end FolioLedger
