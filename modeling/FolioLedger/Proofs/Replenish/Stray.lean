import FolioLedger.Proofs.Replenish.Ingestion
import FolioLedger.Proofs.Replenish.Office

/-!
# Ranges of closed requests

A request that was rejected or timed out should have no range.  A poll reads the status of its
request only when it is taken up, and it registers the range in one change of the store and resolves
the request in another, so there are two ways to such a range (`Office.stray_iff`): the poll
registers it although the request was closed in the meantime (`RegistersLate`), or the request is
closed although its range is registered (`ClosesRegistered`).
-/

namespace FolioLedger

open Store

/-- Whether a request was resolved without a range. -/
def RequestRow.isClosed (r : RequestRow) : Bool :=
  match r.state with
  | .rejected .. | .timedOut .. => true
  | _ => false

/-- A range carries the tracking id of a request that was closed. -/
def Store.Stray (s : Store) : Prop :=
  ∃ r ∈ s.ranges, ∃ row ∈ s.requests, r.trackingId = some row.trackingId ∧ row.isClosed

namespace Office

variable (m : Monitor) (v : Verifier)

/-- A poll registers the range of a request that is closed already. -/
def RegistersLate (o : Office) (a : Act) : Prop :=
  ∃ i step q new id now, a = .go i step ∧ o.polls[i]? = some q ∧ q.stage = .registering new ∧
    o.store.Registers id new now (o.after m v a).store ∧
    ∃ row ∈ o.store.requests, row.trackingId = q.poll.request.trackingId ∧ row.isClosed

/-- A pending request is closed although it has a range. -/
def ClosesRegistered (o : Office) (a : Act) : Prop :=
  ∃ row ∈ o.store.requests, row.state = .pending ∧
    (∃ r ∈ o.store.ranges, r.trackingId = some row.trackingId) ∧
    ∃ row' ∈ (o.after m v a).store.requests, row'.trackingId = row.trackingId ∧ row'.isClosed

/-- The event that an act is for the store. -/
def event? (o : Office) : Act → Option Event
  | .call e => if o.permits e.call then some e else none
  | .takeUp _ _ => none
  | .go i step => do (← o.polls[i]?).event? m step

variable {m v} {o : Office} {a : Act}

theorem after_store (o : Office) (a : Act) :
    (o.after m v a).store = o.store.run (o.event? m a).toList := by
  cases a with
  | call e =>
    simp only [after, event?]
    split <;> rfl
  | takeUp request lease =>
    simp only [after, event?]
    split <;> rfl
  | go i step =>
    simp only [after, event?]
    split
    · next q hq =>
      rw [hq]
      exact q.go_store o.store step
    · next hnone =>
      rw [hnone]
      rfl

end Office

/-! ## Ranges and requests are there to stay -/

section Lasting

variable {s : Store}

theorem Store.exists_tracked_of_run (es : List Event) {trackingId : Option String}
    (h : ∃ r ∈ s.ranges, r.trackingId = trackingId) :
    ∃ r ∈ (s.run es).ranges, r.trackingId = trackingId := by
  induction es generalizing s with
  | nil => exact h
  | cons e es ih =>
    obtain ⟨r, hr, htracking⟩ := h
    obtain ⟨r', hr', -, htracking'⟩ := e.exists_named s ⟨r, hr, rfl, htracking⟩
    exact ih ⟨r', hr', htracking'⟩

theorem RequestRow.Kept.of_isClosed {r r' : RequestRow} (h : r.Kept r') (hclosed : r.isClosed) :
    r' = r := by
  rcases h.state with hsame | hpending
  · rw [h.rest, hsame]
  · simp [RequestRow.isClosed, hpending] at hclosed

theorem Store.mem_requests_of_isClosed {row : RequestRow} (hrow : row ∈ s.requests)
    (hclosed : row.isClosed) (es : List Event) : row ∈ (s.run es).requests := by
  obtain ⟨row', hrow', hkept⟩ := KeepsRequests.run s es row hrow
  exact hkept.of_isClosed hclosed ▸ hrow'

end Lasting

namespace Office

variable {m : Monitor} {v : Verifier} {o : Office}

/-! ## How a range gets a closed request -/

/-- Only the turn of a poll that was about to do so registers a range under a tracking id. -/
theorem exists_registering {a : Act} {e : Event} (he : o.event? m a = some e) {new : NewRange}
    (hnew : new ∈ e.call.registered) {trackingId : String}
    (htracking : new.trackingId = some trackingId) :
    ∃ i step q, a = .go i step ∧ o.polls[i]? = some q ∧ q.stage = .registering new := by
  cases a with
  | call e' =>
    simp only [event?] at he
    split at he
    · next hpermits =>
      cases he
      obtain ⟨clock, call⟩ := e
      cases call <;> simp_all [Call.registered, permits]
    · cases he
  | takeUp => cases he
  | go i step =>
    obtain ⟨q, hq, he⟩ := Option.bind_eq_some_iff.1 he
    exact ⟨i, step, q, rfl, hq, Polling.registered_of_event? he hnew⟩

/-- In a sound office the range that a poll is about to register is for its request. -/
theorem Sound.trackingId_of_registering (h : o.Sound v) {i : Nat} {q : Polling}
    (hq : o.polls[i]? = some q) {new : NewRange} (hstage : q.stage = .registering new) :
    new.trackingId = some q.poll.request.trackingId :=
  ((h.informed q (List.mem_of_getElem? hq)).registering new hstage).mine

/-- What is stray after an act was stray before, or the act is one of the two ways to it. -/
theorem Sound.of_stray_after (h : o.Sound v) {a : Act} (hstray : (o.after m v a).store.Stray) :
    o.store.Stray ∨ o.RegistersLate m v a ∨ o.ClosesRegistered m v a := by
  obtain ⟨r', hr', row', hrow', htracking, hclosed⟩ := hstray
  have hstore := after_store (m := m) (v := v) o a
  cases he : o.event? m a with
  | none =>
    rw [he] at hstore
    rw [hstore] at hr' hrow'
    exact .inl ⟨r', hr', row', hrow', htracking, hclosed⟩
  | some e =>
    replace hstore : (o.after m v a).store = o.store.after e := by rw [hstore, he]; rfl
    rw [hstore] at hr'
    -- Either the range was there, and its request is closed now or was before; or the range is new,
    -- and then the requests are what they were.
    rcases e.range_origin o.store hr' with ⟨r, hr, hdeed⟩ | ⟨id, new, hnew, hregisters, rfl⟩
    · have hold : r.trackingId = some row'.trackingId :=
        (RangeRecord.of_deed hdeed).2.2.1.trans htracking
      rcases (e.docket o.store).origin (hstore ▸ hrow') with hrow | ⟨hpending, -⟩ |
        ⟨row, hrow, hpending, hkept, -⟩
      · exact .inl ⟨r, hr, row', hrow, hold, hclosed⟩
      · simp [RequestRow.isClosed, hpending] at hclosed
      · have hid : row'.trackingId = row.trackingId := by rw [hkept]
        exact .inr (.inr ⟨row, hrow, hpending, ⟨r, hr, hid ▸ hold⟩, row', hrow', hid, hclosed⟩)
    · have hrow : row' ∈ o.store.requests := by
        rw [← hregisters.requests, ← hstore]
        exact hrow'
      obtain ⟨i, step, q, rfl, hq, hstage⟩ := exists_registering he hnew htracking
      have hmine : some q.poll.request.trackingId = some row'.trackingId :=
        (h.trackingId_of_registering hq hstage).symm.trans htracking
      exact .inr (.inl ⟨i, step, q, new, id, e.clock, rfl, hq, hstage, hstore ▸ hregisters,
        row', hrow, (Option.some.inj hmine).symm, hclosed⟩)

theorem Sound.stray_after (h : o.Sound v) {a : Act} (hways : o.store.Stray ∨
    o.RegistersLate m v a ∨ o.ClosesRegistered m v a) : (o.after m v a).store.Stray := by
  have hstore := after_store (m := m) (v := v) o a
  rcases hways with ⟨r, hr, row, hrow, htracking, hclosed⟩ |
    ⟨i, step, q, new, id, now, rfl, hq, hstage, hregisters, row, hrow, hid, hclosed⟩ |
    ⟨row, -, -, hregistered, row', hrow', hid, hclosed⟩
  · obtain ⟨r', hr', htracking'⟩ :=
      exists_tracked_of_run (o.event? m a).toList ⟨r, hr, htracking⟩
    rw [← hstore] at hr'
    exact ⟨r', hr', row, hstore ▸ mem_requests_of_isClosed hrow hclosed _, htracking', hclosed⟩
  · -- The requests are what they were, so `row` is still closed.
    refine ⟨new.toRow id now, ?_, row, ?_, ?_, hclosed⟩
    · rw [hregisters.ranges]
      exact List.mem_append_right _ (List.mem_singleton_self _)
    · rw [hregisters.requests]
      exact hrow
    · rw [hid]
      exact h.trackingId_of_registering hq hstage
  · obtain ⟨r', hr', htracking'⟩ := exists_tracked_of_run (o.event? m a).toList hregistered
    rw [← hstore] at hr'
    exact ⟨r', hr', row', hrow', hid ▸ htracking', hclosed⟩

theorem Sound.stray_run_iff (h : o.Sound v) (as : List Act) :
    (o.run m v as).store.Stray ↔ o.store.Stray ∨ ∃ as₁ a as₂, as = as₁ ++ a :: as₂ ∧
      ((o.run m v as₁).RegistersLate m v a ∨ (o.run m v as₁).ClosesRegistered m v a) := by
  induction as generalizing o with
  | nil => simp [Office.run]
  | cons a as ih =>
    refine (ih (h.after a)).trans ⟨?_, ?_⟩
    · rintro (hafter | ⟨as₁, b, as₂, rfl, hways⟩)
      · rcases h.of_stray_after hafter with hbefore | hways
        · exact .inl hbefore
        · exact .inr ⟨[], a, as, rfl, hways⟩
      · exact .inr ⟨a :: as₁, b, as₂, rfl, hways⟩
    · rintro (hbefore | ⟨_ | ⟨b, as₁⟩, c, as₂, hsplit, hways⟩)
      · exact .inl (h.stray_after (.inl hbefore))
      · cases hsplit
        exact .inl (h.stray_after (.inr hways))
      · cases hsplit
        exact .inr ⟨as₁, c, as₂, rfl, hways⟩

/-- A run leaves a range under the tracking id of a closed request exactly if somewhere in it a poll
registers the range of a request that is closed already, or a request is closed that has its range
already.  It stays so from then on. -/
theorem stray_iff (m : Monitor) (v : Verifier) (as : List Act) :
    (start.run m v as).store.Stray ↔ ∃ as₁ a as₂, as = as₁ ++ a :: as₂ ∧
      ((start.run m v as₁).RegistersLate m v a ∨ (start.run m v as₁).ClosesRegistered m v a) := by
  have hnone : ¬ start.store.Stray := by
    rintro ⟨r, hr, -⟩
    cases hr
  rw [Sound.start.stray_run_iff as, or_iff_right hnone]

end Office

/-! ## A request that is withdrawn before its poll begins -/

section

variable {M : Type → Type} [Monad M] [LawfulMonad M] {w : Workshop} {world : World M} {p : Poll}
  {s t u : Store} {now : Instant} {location id : String} {raw : ByteArray} {new : NewRange}
  {range : Range} {failure : Failure} {outcome : Except Failure PollOutcome}

/-- A poll that registers the range of its request in its first tick and is refused after that. -/
theorem Workshop.poll_of_refused (interval : Nat)
    (cancelled : world.isCancelled = pure false) (pause : world.pause interval = pure ())
    (clock : world.now = pure now) (name : world.freshRangeId = pure id)
    (status : world.authority.status p.request.trackingId = pure (.ok (.accepted location)))
    (download : world.authority.download location = pure (.ok raw))
    (tick : p.tick w.monitor s now now = ((.asking now, p), s, []))
    (deliver : p.delivered w.verifier now (.ok raw) = .registering new)
    (register : p.register w.monitor w.faulty s id now new = (.accepting range, t))
    (accept : p.accept t now range = (.rejecting failure, t))
    (reject : p.reject t now failure = (.ended outcome, u, [])) :
    w.poll world interval 1 p s = pure (outcome, u, []) := by
  have answered : p.answered s now (.ok (.accepted location)) = (.fetching location, s, []) := rfl
  simp only [Workshop.poll, Workshop.tick, Workshop.advanceAll, Workshop.advance, cancelled, pause,
    clock, name, status, download, tick, answered, deliver, register, accept, reject, pure_bind,
    Bool.false_eq_true, if_false, List.append_nil]

end

/-- A world in which no time passes, with an authority that accepts every request. -/
def trialWorld : World Id where
  authority :=
    { submit := fun _ => return .ok "trk-1"
      status := fun _ => return .ok (.accepted "artifacts/1")
      download := fun _ => return .ok trialBytes }
  now := return .epoch
  freshToken := return "token"
  freshRangeId := return "R1"
  isCancelled := return false
  pause _ := return ()

def trialWorkshop : Workshop := ⟨trialSettings.monitor, trialVerifier, none⟩

/-- The request as its trigger answers it. -/
def withdrawn : ReplenishmentRequest :=
  ⟨"trk-1", trialArtifact.series, 1, 5, .pending, none, none, .epoch, none⟩

def withdrawnPoll : Poll := ⟨withdrawn, ⟨"replenish:A:T", "token", 1, earlyAt 20⟩, earlyAt 48⟩

/-- The request was rejected, and the lock of its series is still held for the poll. -/
def withdrawnStore : Store where
  requests := [⟨"trk-1", trialArtifact.series, 1, 5, 0, .rejected "withdrawn" 0⟩]
  locks := [⟨"replenish:A:T", "token", 1, 20000⟩]

def strayRange : NewRange := withdrawnPoll.granted trialVerified

def strayStore : Store :=
  { withdrawnStore with
    ranges := [strayRange.toRow "R1" .epoch], folios := strayRange.folios "R1" }

/-- A trigger submits a request, the request is rejected, and the poll with the lease of the trigger
registers a range for it.  Only then it fails, since the request cannot be accepted. -/
theorem closed_request_has_range :
    ∃ request lease s t p outcome u,
      (trialWorkshop.trigger trialWorld .empty trialArtifact.series 3).run =
        (.ok (.submitted request lease), s) ∧
      s.markRejected request.trackingId "withdrawn" .epoch = .ok t ∧
      Poll.start? trialWorkshop.monitor request lease = some p ∧
      (trialWorkshop.poll trialWorld 1000 1 p t).run = (outcome, u, []) ∧ u.Stray := by
  have htrigger : (trialWorkshop.trigger trialWorld .empty trialArtifact.series 3).run =
      (.ok (.submitted withdrawn withdrawnPoll.lease), { withdrawnStore with
        requests := [⟨"trk-1", trialArtifact.series, 1, 5, 0, .pending⟩] }) := by
    decide +kernel
  have htick : withdrawnPoll.tick trialWorkshop.monitor withdrawnStore .epoch .epoch =
      ((.asking .epoch, withdrawnPoll), withdrawnStore, []) :=
    Poll.tick_of_renew (Prod.ext (by decide +kernel) (by decide +kernel)) (by decide)
  have hdelivered : withdrawnPoll.delivered trialWorkshop.verifier .epoch (.ok trialBytes) =
      .registering strayRange := Poll.delivered_of_verify verify_trialBytes rfl rfl
  have hregister : withdrawnPoll.register trialWorkshop.monitor trialWorkshop.faulty withdrawnStore
      "R1" .epoch strayRange = (.accepting (strayRange.toRange "R1" .epoch), strayStore) :=
    Poll.register_of_ok (register_of_checks rfl (by decide) rfl rfl)
  have haccept : withdrawnPoll.accept strayStore .epoch (strayRange.toRange "R1" .epoch) =
      (.rejecting (.invalidTransition (.resolving "trk-1" .rejected .accepted)), strayStore) := rfl
  have hreject : withdrawnPoll.reject strayStore .epoch
      (.invalidTransition (.resolving "trk-1" .rejected .accepted)) =
        (.ended (.error (.invalidTransition (.resolving "trk-1" .rejected .rejected))),
          strayStore.release withdrawnPoll.lease, []) := rfl
  have hpoll : (trialWorkshop.poll trialWorld 1000 1 withdrawnPoll withdrawnStore).run =
      (.error (.invalidTransition (.resolving "trk-1" .rejected .rejected)),
        strayStore.release withdrawnPoll.lease, []) :=
    congrArg Id.run <| Workshop.poll_of_refused 1000 rfl rfl rfl rfl rfl rfl htick hdelivered
      hregister haccept hreject
  have hstray : (strayStore.release withdrawnPoll.lease).Stray :=
    ⟨strayRange.toRow "R1" .epoch, List.mem_singleton_self _, _, List.mem_singleton_self _, rfl, rfl⟩
  exact ⟨withdrawn, withdrawnPoll.lease, _, withdrawnStore, withdrawnPoll, _, _, htrigger,
    by decide +kernel, by decide +kernel, hpoll, hstray⟩

end FolioLedger
