import FolioLedger.Proofs.Config.Horizon
import FolioLedger.Proofs.Ledger.Permanence
import FolioLedger.Proofs.Replenish.Docket
import FolioLedger.Proofs.Replenish.Outstanding
import FolioLedger.Proofs.Replenish.Setbacks

/-!
# Requests can be ingested

A request is checked when it is made, and its range is checked again when it is registered, maybe
much later.  A request asks for numbers above all that its series has (`Monitor.prepare_asks`), and
that stays so while no range of the series is registered (`Store.Awaits`), so nothing stands in the
way of its range.  The range is otherwise as well-formed as the request was
(`NewRange.check_eq_ok_iff`), and it expires after it was authorized since the authorization is good
for a month at least.
-/

namespace FolioLedger

open Store

/-! ## What a trigger asks for -/

/-- Every number of a series lies below a bound. -/
def Store.Below (s : Store) (series : Series) (bound : Nat) : Prop :=
  ∀ f ∈ s.folios, f.series = series → f.number < bound

/-- A request that may be made for a series. -/
structure Monitor.Asks (m : Monitor) (s : Store) (series : Series) (r : RangeRequest) : Prop where
  above : s.Below series r.first
  series : r.series = series
  last : r.last = r.first + (m.quantity - 1)
  checked : r.check m.maxRangeSize = .ok ()

namespace Monitor

variable {m : Monitor} {s t : Store} {now later : Instant} {token : String} {series : Series}
  {threshold : Nat} {draft : Draft}

theorem nextRequest_asks {r : RangeRequest} (h : m.nextRequest s series = .ok r) :
    m.Asks s series r := by
  have hask : ∀ first : Nat, s.Below series first → (do
      if 1 <<< 64 ≤ first + (m.quantity - 1) then throw (.invalidRequest .beyondNumbers)
      RangeRequest.check m.maxRangeSize ⟨series, first, first + (m.quantity - 1)⟩
      return ⟨series, first, first + (m.quantity - 1)⟩) = Except.ok r → m.Asks s series r := by
    intro first habove hok
    simp only [throw_bind] at hok
    split at hok
    · cases hok
    obtain ⟨_, hchecked, hok⟩ := bind_eq_ok.1 hok
    cases hok
    exact ⟨habove, rfl, rfl, hchecked⟩
  refine hask _ (fun f hf hseries => ?_) h
  have hmem : f.number ∈ (s.foliosOf series).map (·.number) :=
    List.mem_map_of_mem (mem_foliosOf.2 ⟨hf, hseries⟩)
  cases hmax : s.maxNumber? series with
  | none =>
    rw [maxNumber?, greatest_eq_none] at hmax
    rw [hmax] at hmem
    cases hmem
  | some n => exact Nat.lt_succ_of_le (le_greatest hmax hmem)

theorem prepare_asks (h : m.prepare s now later token series threshold = (.submit draft, t)) :
    m.Asks s series draft.request := by
  have hledger := s.acquire_sameLedger now m.lockTtl token (Lock.replenishment series)
  unfold Monitor.prepare at h
  split at h
  · cases h
  · cases h
  · next lease u hacquire =>
    rw [hacquire] at hledger
    split at h
    · cases h
    · cases h
    · cases h
    · next draft' hlocked =>
      cases h
      unfold prepareLocked at hlocked
      obtain ⟨pending, -, hlocked⟩ := bind_eq_ok.1 hlocked
      cases pending with
      | some request => cases hlocked
      | none =>
        simp only at hlocked
        split at hlocked
        · cases hlocked
        · obtain ⟨request, hrequest, hlocked⟩ := bind_eq_ok.1 hlocked
          cases hlocked
          obtain ⟨habove, hseries, hlast, hchecked⟩ := nextRequest_asks hrequest
          exact ⟨fun f hf => habove f (hledger.folios ▸ hf), hseries, hlast, hchecked⟩

end Monitor

/-! ## While a request waits -/

/-- An event that registers no range of a series and does not resolve a request. -/
structure Event.Spares (e : Event) (series : Series) (trackingId : String) : Prop where
  registers : ∀ new ∈ e.call.registered, new.series ≠ series
  resolves : ∀ r ∈ e.resolved, r.1 ≠ trackingId

/-- Assignments, voidings, bindings and sweeps. -/
def Call.isClerical : Call → Bool
  | .assign .. | .void .. | .bind .. | .expire _ | .markNearExpiry .. | .sweep .. => true
  | _ => false

theorem Event.spares_of_isClerical {e : Event} (h : e.call.isClerical) (series : Series)
    (trackingId : String) : e.Spares series trackingId := by
  obtain ⟨clock, call⟩ := e
  cases call <;> cases h <;> exact ⟨by simp [Call.registered], by simp [Event.resolved]⟩

/-- No number comes into a series but with a range that is registered. -/
theorem Store.Below.after {s : Store} {series : Series} {bound : Nat} (h : s.Below series bound)
    (hs : Coherent s) {e : Event} (hspares : ∀ new ∈ e.call.registered, new.series ≠ series) :
    (s.after e).Below series bound := by
  intro f hf hseries
  obtain ⟨r', hr', -, hrseries, hfirst, hlast⟩ := (hs.after e).toAligned.exists_range hf
  -- The range of the number was there already: one that is registered now is for another series.
  have hold : ∃ r ∈ s.ranges, r.scope = r'.scope := by
    rcases e.range_origin s hr' with ⟨r, hr, hdeed⟩ | ⟨id, new, hnew, -, rfl⟩
    · exact ⟨r, hr, (RangeRecord.of_deed hdeed).2.1⟩
    · exact absurd (hrseries.symm.trans hseries) (hspares new hnew)
  obtain ⟨r, hr, hscope⟩ := hold
  obtain ⟨hsame, hfirst', hlast'⟩ := RangeRequest.mk.inj hscope
  obtain ⟨g, hg, hgseries, hgnumber, -⟩ :=
    hs.toAligned.exists_folio hr (hfirst'.trans_le hfirst) (hlast.trans_eq hlast'.symm)
  rw [← hgnumber]
  exact h g hg (hgseries.trans (hsame.trans (hrseries.symm.trans hseries)))

theorem Store.Below.run {s : Store} {series : Series} {bound : Nat} (h : s.Below series bound)
    (hs : Coherent s) {es : List Event}
    (hspares : ∀ e ∈ es, ∀ new ∈ e.call.registered, new.series ≠ series) :
    (s.run es).Below series bound := by
  induction es generalizing s with
  | nil => exact h
  | cons e es ih =>
    exact ih (h.after hs (hspares e List.mem_cons_self)) (hs.after e) fun e' he' =>
      hspares e' (List.mem_cons_of_mem _ he')

/-- The request of a row is there, and nothing stands in the way of its range. -/
structure Store.Awaits (s : Store) (row : RequestRow) : Prop where
  coherent : Coherent s
  stored : s.request? row.trackingId = some row
  below : s.Below row.series row.first

namespace Store.Awaits

variable {s : Store} {row : RequestRow}

theorem after (h : s.Awaits row) {e : Event} (hspares : e.Spares row.series row.trackingId) :
    (s.after e).Awaits row where
  coherent := h.coherent.after e
  stored := request?_after h.stored hspares.resolves
  below := h.below.after h.coherent hspares.registers

theorem run (h : s.Awaits row) {es : List Event}
    (hspares : ∀ e ∈ es, e.Spares row.series row.trackingId) : (s.run es).Awaits row := by
  induction es generalizing s with
  | nil => exact h
  | cons e es ih =>
    exact ih (h.after (hspares e List.mem_cons_self)) fun e' he' =>
      hspares e' (List.mem_cons_of_mem _ he')

end Store.Awaits

/-! ## Registering what was asked for -/

namespace Store

variable {s : Store} {id : String} {new : NewRange} {limit : Nat} {faulty : Option Nat}
  {now : Instant}

/-- A range whose numbers lie above all of its series is registered, if the medium does not refuse
it. -/
theorem Below.register (h : s.Below new.series new.first) (hs : Coherent s) (now : Instant)
    (hrequest : new.scope.check limit = .ok ()) (hlast : new.last ≤ maxNumber)
    (hexpiry : ¬ new.expiresAt ≤ new.authorizedAt)
    (hmillis : new.authorizedAt.toMillis < new.expiresAt.toMillis)
    (hfresh : ∀ r ∈ s.ranges, r.id ≠ id)
    (hfaulty : ∀ n, faulty = some n → n < new.first ∨ new.last < n) :
    s.register limit faulty id now new = .ok (new.toRange id now, { s with
      ranges := s.ranges ++ [new.toRow id now], folios := s.folios ++ new.folios id }) := by
  have hcheck := NewRange.check_eq_ok_iff.2 ⟨hrequest, hexpiry⟩
  refine register_of_checks hcheck hlast ?_ ?_
  · exact (hs.toAligned.checkNumbers_iff (NewRange.check_eq_ok hcheck).2).2
      ⟨fun f hf hseries => .inl (h f hf hseries), fun f hf hseries _ => h f hf hseries⟩
  · exact checkRows_eq_ok_iff.2 ⟨hmillis, hfresh, hfaulty⟩

end Store

/-! ## A tick that ends a poll -/

open Polling

/-- In a tick before the deadline the lock is renewed, the authority has accepted the request, and it
delivers an artifact for the request that the verifier accepts.  Others may act in between. -/
structure Poll.Receives (p : Poll) (m : Monitor) (v : Verifier) (s : Store) (now later : Instant)
    (hs : List Happening) (a : VerifiedArtifact) : Prop where
  renewed : ∃ lease t, s.renew now m.lockTtl p.lease = (.ok lease, t)
  inTime : ¬ p.deadline ≤ later
  turns : ∃ location clock bytes, hs.filterMap Happening.own? =
      [.answered (.ok (.accepted location)), .delivered clock (.ok bytes)] ∧
    v.verify bytes p.request.series clock = .ok a
  bounds : a.first = p.request.first ∧ a.last = p.request.last
  others : ∀ e, .other e ∈ hs → e.Spares p.request.series p.request.trackingId

/-- Such a tick leads to the range of the artifact, whatever others do in between, and what they keep
holds after it. -/
theorem Poll.follow_received {p : Poll} {m : Monitor} {v : Verifier} {s t : Store}
    {now later clock : Instant} {hs : List Happening} {lease : Lease} {location : String}
    {bytes : ByteArray} {a : VerifiedArtifact}
    {P : Store → Prop} (hrenew : s.renew now m.lockTtl p.lease = (.ok lease, t))
    (hintime : ¬ p.deadline ≤ later) (hown : hs.filterMap Happening.own? =
      [.answered (.ok (.accepted location)), .delivered clock (.ok bytes)])
    (hverify : v.verify bytes p.request.series clock = .ok a)
    (hbounds : a.first = p.request.first ∧ a.last = p.request.last)
    (hkeep : ∀ e, .other e ∈ hs → ∀ s, P s → P (s.after e)) (h : P t) :
    ∃ u, follow m v (p.begun, s) (.own (.tick now later) :: hs) =
      (⟨{ p with lease := lease }, .registering (p.granted a), []⟩, u) ∧ P u := by
  have hgo : p.begun.go m v s (.tick now later) =
      (⟨{ p with lease := lease }, .asking later, []⟩, t) := by
    simp only [Poll.begun, Polling.go, tick_of_renew hrenew hintime, List.append_nil]
  rw [follow_cons, meet, hgo]
  -- Others may act before the answer, before the delivery and after it.
  obtain ⟨t₁, hs₁, ht₁, hown₁, hothers₁, hfollow₁⟩ := follow_next (m := m) (v := v) hown hkeep h
  obtain ⟨t₂, hs₂, ht₂, hown₂, hothers₂, hfollow₂⟩ := follow_next (m := m) (v := v) hown₁
    (fun e he => hkeep e (hothers₁ e he)) ht₁
  obtain ⟨t₃, hfollow₃, ht₃⟩ := follow_others (m := m) (v := v) hown₂
    (fun e he => hkeep e (hothers₁ e (hothers₂ e he))) ht₂
  refine ⟨t₃, ?_, ht₃⟩
  have hdelivered : ({ p with lease := lease } : Poll).delivered v clock (.ok bytes) =
      .registering (p.granted a) := delivered_of_verify hverify hbounds.1 hbounds.2
  rw [hfollow₁]
  show Polling.follow m v (⟨{ p with lease := lease }, .fetching location, []⟩, t₁) hs₁ = _
  rw [hfollow₂]
  show Polling.follow m v (⟨{ p with lease := lease },
    ({ p with lease := lease } : Poll).delivered v clock (.ok bytes), []⟩, t₂) hs₂ = _
  rw [hdelivered, hfollow₃]

/-- After such a tick the request still waits. -/
theorem Poll.Receives.follow {p : Poll} {m : Monitor} {v : Verifier} {s : Store} {now later : Instant}
    {hs : List Happening} {a : VerifiedArtifact} {row : RequestRow}
    (h : p.Receives m v s now later hs a)
    (hawaits : s.Awaits row) (hid : p.request.trackingId = row.trackingId)
    (hseries : p.request.series = row.series) :
    ∃ lease t, follow m v (p.begun, s) (.own (.tick now later) :: hs) =
      (⟨{ p with lease := lease }, .registering (p.granted a), []⟩, t) ∧ t.Awaits row := by
  obtain ⟨⟨lease, t, hrenew⟩, hintime, ⟨location, clock, bytes, hown, hverify⟩, hbounds, hothers⟩ := h
  rw [hid, hseries] at hothers
  have ht : t.Awaits row := by
    have hspares : Event.Spares ⟨now, .tick m p later⟩ row.series row.trackingId :=
      ⟨by simp [Call.registered], by simp [Event.resolved, hintime]⟩
    have hafter := hawaits.after hspares
    simp only [Store.after, tick_of_renew hrenew hintime] at hafter
    exact hafter
  exact ⟨lease, follow_received hrenew hintime hown hverify hbounds
    (fun e he _ hstill => hstill.after (hothers e he)) ht⟩

/-! ## Ingestion -/

/-- The poll of a request ended with a range for all that was asked for, whose folios are all there
to be handed out. -/
structure Polling.Ingested (q : Polling) (t : Store) (request : ReplenishmentRequest) (id : String) :
    Prop where
  outcome : ∃ done range, q.stage = .ended (.ok (.ingested done range)) ∧
    done.trackingId = request.trackingId ∧ done.status = .accepted ∧ done.rangeId = some id ∧
    range.id = id
  quiet : q.alerts = []
  range : ∃ r, t.range? id = some r ∧ r.status = .active ∧ r.scope = request.scope ∧
    r.trackingId = some request.trackingId
  folios : t.folios.filter (·.rangeId = id) =
    (List.range' request.first (request.last + 1 - request.first)).map fun n =>
      ⟨request.series, n, id, .available⟩

/-- A pending request that can be read back is accepted with the range of its poll. -/
theorem Poll.accept_of_pending {p : Poll} {s : Store} {row : RequestRow} {now : Instant}
    (range : Range) (hrow : s.request? p.request.trackingId = some row)
    (hpending : row.state = .pending) (hrequested : ∃ t, Instant.ofMillis row.requestedAt = .ok t)
    (hnow : now.Readable) :
    ∃ done t, p.accept s now range = (.ended (.ok (.ingested done range)), t) ∧ SameLedger s t ∧
      done.trackingId = row.trackingId ∧ done.status = .accepted ∧ done.rangeId = some range.id := by
  obtain ⟨t, hresolve, hfound⟩ :=
    resolve_of_pending hrow hpending (.accepted range.id now.toMillis)
  obtain ⟨done, hdone⟩ := (RequestRow.toRequest_accepted_iff
    { row with state := .accepted range.id now.toMillis } rfl).2 ⟨hrequested, hnow⟩
  have hread : t.getRequest p.request.trackingId = .ok done := by
    simp only [getRequest, hfound, hdone]
  refine ⟨done, t.release p.lease, ?_, ?_, (RequestRow.toRequest_eq_ok hdone).1,
    RequestRow.toRequest_state hdone⟩
  · simp only [accept, markAccepted, hresolve, hread, finish]
  · exact (resolve_sameLedger hresolve).trans (t.release_sameLedger p.lease)

/-- The folios of a range that is registered are those under its id. -/
theorem Store.Registers.folios_filter {s t : Store} {id : String} {new : NewRange} {now : Instant}
    (h : s.Registers id new now t) (hs : Aligned s) :
    t.folios.filter (·.rangeId = id) = new.folios id := by
  have hold : s.folios.filter (·.rangeId = id) = [] := by
    refine List.filter_eq_nil_iff.2 fun f hf hid => ?_
    obtain ⟨r, hr, hrid, -⟩ := hs.exists_range hf
    exact h.admissible.fresh r hr (hrid.trans (by simpa using hid))
  have hnew : (new.folios id).filter (·.rangeId = id) = new.folios id := by
    refine List.filter_eq_self.2 fun f hf => ?_
    obtain ⟨n, -, rfl⟩ := List.mem_map.1 hf
    simp
  rw [h.folios, List.filter_append, hold, hnew, List.nil_append]

/-- A poll that registers the range of a request that waits ends with it. -/
theorem Store.Awaits.ingested {s t : Store} {row : RequestRow} (h : s.Awaits row)
    (hpending : row.state = .pending) (hrequested : ∃ t, Instant.ofMillis row.requestedAt = .ok t)
    {p : Poll} {new : NewRange} {m : Monitor} {v : Verifier} {faulty : Option Nat} {id : String}
    {now done : Instant} (hid : p.request.trackingId = row.trackingId)
    (hscope : new.scope = p.request.scope) (htracking : new.trackingId = some p.request.trackingId)
    (hregister : s.register m.maxRangeSize faulty id now new = .ok (new.toRange id now, t))
    (hdone : done.Readable) :
    (follow m v (⟨p, .registering new, []⟩, s)
      [.own (.register faulty id now), .own (.accept done)]).1.Ingested
      (follow m v (⟨p, .registering new, []⟩, s)
        [.own (.register faulty id now), .own (.accept done)]).2 p.request id := by
  have hregisters := register_registers hregister
  have hrow : t.request? p.request.trackingId = some row := by
    rw [request?_congr hregisters.requests, hid]
    exact h.stored
  obtain ⟨accepted, u, haccept, hledger, hacceptedId, hstatus, hrangeId⟩ :=
    Poll.accept_of_pending (new.toRange id now) hrow hpending hrequested hdone
  have hfollow : follow m v (⟨p, .registering new, []⟩, s)
      [.own (.register faulty id now), .own (.accept done)] =
        (⟨p, .ended (.ok (.ingested accepted (new.toRange id now))), []⟩, u) := by
    simp only [follow_cons, follow_nil, meet, Polling.go, Poll.register_of_ok hregister, haccept]
  rw [hfollow]
  have haligned : Aligned t := (h.coherent.edit (register_edit hregister)).toAligned
  have hmem : new.toRow id now ∈ u.ranges := by
    rw [hledger.ranges, hregisters.ranges]
    exact List.mem_append_right _ (List.mem_singleton_self _)
  obtain ⟨hseries, hfirst, hlast⟩ := RangeRequest.mk.inj hscope
  refine ⟨⟨accepted, _, rfl, hacceptedId.trans hid.symm, hstatus, hrangeId, rfl⟩, rfl,
    ⟨_, (haligned.of_sameLedger hledger).range?_of_mem hmem, rfl, hscope, htracking⟩, ?_⟩
  rw [hledger.folios, hregisters.folios_filter h.coherent.toAligned, NewRange.folios, hseries,
    hfirst, hlast]

/-- A poll of a request, as its trigger answered it or as the store gives it back. -/
structure Poll.IsOf (p : Poll) (m : Monitor) (request : ReplenishmentRequest) (s : Store) :
    Prop where
  request : p.request = request ∨ s.getRequest request.trackingId = .ok p.request
  deadline : Poll.start? m p.request p.lease = some p

theorem Polling.Ingested.congr {q : Polling} {t : Store} {request request' : ReplenishmentRequest}
    {id : String} (h : q.Ingested t request id) (hid : request'.trackingId = request.trackingId)
    (hscope : request'.scope = request.scope) : q.Ingested t request' id := by
  obtain ⟨hseries, hfirst, hlast⟩ := RangeRequest.mk.inj hscope
  refine ⟨?_, h.quiet, ?_, ?_⟩
  · rw [hid]
    exact h.outcome
  · rw [hid, hscope]
    exact h.range
  · rw [hseries, hfirst, hlast]
    exact h.folios

theorem Store.submission?_prepare {s : Store} {clock later : Instant} {m : Monitor} {token : String}
    {series : Series} {threshold : Nat} {draft : Draft}
    (h : s.submission? ⟨clock, .prepare m later token series threshold⟩ = some draft) :
    ∃ t, m.prepare s clock later token series threshold = (.submit draft, t) := by
  simp only [submission?] at h
  split at h
  · next hprepare =>
    cases h
    exact ⟨_, Prod.ext hprepare rfl⟩
  · cases h

/-- The request that a trigger recorded waits in the store, if its numbers are still free. -/
theorem Monitor.record_awaits {s t : Store} {draft : Draft} {trackingId : String}
    {request : ReplenishmentRequest} {lease : Lease} (hs : Coherent s)
    (h : Monitor.record s draft (.ok trackingId) = (.ok (.submitted request lease), t)) :
    request = recordOf draft trackingId ∧ draft.request.last ≤ maxNumber ∧
      (s.Below draft.request.series draft.request.first →
        t.Awaits ⟨trackingId, draft.request.series, draft.request.first, draft.request.last,
          draft.requestedAt.toMillis, .pending⟩) := by
  simp only [Monitor.record] at h
  split at h
  · next u hrecord =>
    cases h
    obtain ⟨⟨-, ⟨-, hlast⟩, hfresh, -⟩, rfl⟩ := recordRequest_eq_ok_iff.1 hrecord
    refine ⟨rfl, hlast, fun hbelow =>
      ⟨hs.of_sameLedger (recordRequest_sameLedger hrecord), ?_, hbelow⟩⟩
    have hnone : s.requests.find? (·.trackingId = trackingId) = none := by
      simpa [recordOf] using hfresh
    simp only [request?, List.find?_append, hnone, Option.none_or]
    simp [recordOf]
  · cases h

/-- With a deadline at least a second after it, the moment of a request can be read back. -/
theorem Poll.IsOf.requested {p : Poll} {m : Monitor} {draft : Draft} {trackingId : String}
    {s : Store} (h : p.IsOf m (Monitor.recordOf draft trackingId) s) {row : RequestRow}
    (hrow : s.request? trackingId = some row) (hsame : row.requestedAt = draft.requestedAt.toMillis)
    (hid : row.trackingId = trackingId) (hscope : row.scope = draft.request)
    (htimeout : 1 ≤ m.pollTimeout) :
    p.request.trackingId = trackingId ∧ p.request.scope = draft.request ∧
      ∃ t, Instant.ofMillis row.requestedAt = .ok t := by
  rcases h.request with hrequest | hread
  · refine ⟨by rw [hrequest]; rfl, by rw [hrequest]; rfl, ?_⟩
    obtain ⟨deadline, hdeadline, -⟩ := Option.map_eq_some_iff.1 h.deadline
    have hpatience : (1000000000 : Int) ≤ Poll.patience m := by
      unfold Poll.patience
      split
      · omega
      · decide
    rw [hrequest] at hdeadline
    rw [hsame]
    exact Instant.readable_of_add? hpatience hdeadline
  · have hread : s.getRequest trackingId = .ok p.request := hread
    rw [getRequest, hrow] at hread
    obtain ⟨hid', hscope', hrequested⟩ := RequestRow.toRequest_eq_ok hread
    exact ⟨hid'.trans hid, hscope'.trans hscope, _, hrequested⟩

/-- Settings with the times of a trial. -/
def trialSettings : EngineConfig where
  requestQuantity := 5
  requestLockTtlSecs := 20
  pollIntervalSecs := 5
  pollTimeoutSecs := 48

/-- The range of another series is registered. -/
def otherSeries : List Event :=
  [⟨earlyAt 0, .register 10 none "other"
    ⟨⟨"B", "T"⟩, 1, 3, earlyAt 0, earlyAt 50, none, none⟩⟩]

def trialTrigger : Event :=
  ⟨earlyAt 1, .prepare trialSettings.monitor (earlyAt 1) "token" trialArtifact.series 3⟩

def trialDraft : Draft :=
  ⟨⟨trialArtifact.series, 1, 5⟩, earlyAt 1, ⟨"replenish:A:T", "token", 1, earlyAt 21⟩⟩

/-- The request is recorded. -/
def trialStore : Store :=
  (Monitor.record (Store.empty.run (otherSeries ++ [trialTrigger])) trialDraft (.ok "trk-1")).2

def trialSweep : Event := ⟨earlyAt 2, .sweep ⟨15, none⟩ (earlyAt 2)⟩

def trialPoll : Poll := ⟨Monitor.recordOf trialDraft "trk-1", trialDraft.lease, earlyAt 49⟩

/-- The request is accepted and its artifact fetched.  Meanwhile a folio of the other series is used. -/
def trialTick : List Happening :=
  [.own (.answered (.ok (.accepted "artifacts/1"))),
   .other ⟨earlyAt 11, .assign ⟨false, none⟩ ⟨"B", "T"⟩ none⟩,
   .own (.delivered .epoch (.ok trialBytes))]

end FolioLedger
