import FolioLedger.Proofs.Replenish.Artifact
import FolioLedger.Proofs.Replenish.Docket
import FolioLedger.Proofs.Replenish.Held
import FolioLedger.Proofs.Replenish.Polling

/-!
# Ingestion

An `Office` is a store, the polls that were taken up, and the bytes that the authority delivered so
far.  Anybody may act at any time: operators and triggers (`Act.call`), whoever takes up a poll of a
recorded request, and each poll at its next turn.  A poll may be left lying between two turns for
good, and the same request may be polled anew, by several polls at once.  What an office does not
permit is that a range gets a tracking id, or a request is accepted, other than by a poll that
ingests.

`Office.Sound` is kept by every act.  It carries what a poll knows between two of its turns: the
range that it is about to register was vouched for by a delivery, and the one that it is about to
name is registered under the tracking id of its request.  That a request gets one range at most comes
from the ledger: a second one would claim the same numbers.
-/

namespace FolioLedger

open Store

/-! ## What a poll knows of a range -/

theorem Store.getRange_eq_ok {s : Store} {id : String} {d : Range} (h : s.getRange id = .ok d) :
    ∃ r ∈ s.ranges, r.id = d.id ∧ r.trackingId = d.trackingId := by
  unfold getRange at h
  split at h
  · next r hr =>
    obtain ⟨hid, -, htracking, -⟩ := RangeRecord.toRange_eq_ok h
    exact ⟨r, List.mem_of_find?_eq_some hr, hid.symm, htracking.symm⟩
  · cases h

theorem Poll.rangeOf_eq_ok {p : Poll} {a : VerifiedArtifact} {new : NewRange}
    (h : p.rangeOf a = .ok new) :
    new.trackingId = some p.request.trackingId ∧ new.scope = p.request.scope ∧
      new.first = a.first ∧ new.last = a.last ∧ new.artifactHash = some a.hash := by
  unfold rangeOf at h
  split at h
  · next hbounds =>
    cases h
    exact ⟨rfl, by simp [NewRange.scope, ReplenishmentRequest.scope, hbounds], rfl, rfl, rfl⟩
  · cases h

/-- Bytes that were delivered for a request, and what the clock read. -/
structure Delivery where
  trackingId : String
  clock : Instant
  bytes : ByteArray

/-- The bytes are accepted as an artifact for these numbers of a series, and have this hash. -/
def Delivery.Proves (d : Delivery) (v : Verifier) (scope : RangeRequest) (hash : Option String) :
    Prop :=
  (∃ a, v.verify d.bytes scope.series d.clock = .ok a ∧ a.first = scope.first ∧
    a.last = scope.last) ∧ hash = some (contentHash d.bytes.toList)

structure Office where
  store : Store
  polls : List Polling
  deliveries : List Delivery

inductive Act where
  | call (e : Event)
  /-- Somebody who has the lock of its series takes up the poll of a request. -/
  | takeUp (request : ReplenishmentRequest) (lease : Lease)
  /-- A poll has its turn. -/
  | go (i : Nat) (step : PollStep)

/-- Whether a poll is about to name a range as the outcome of a request. -/
def Polling.names (q : Polling) (trackingId rangeId : String) : Bool :=
  match q.stage with
  | .accepting range => q.poll.request.trackingId = trackingId && range.id = rangeId
  | _ => false

/-- The delivery that a turn of a poll is. -/
def Polling.delivery? (q : Polling) : PollStep → Option Delivery
  | .delivered now (.ok bytes) => some ⟨q.poll.request.trackingId, now, bytes⟩
  | _ => none

namespace Polling

variable {m : Monitor} {v : Verifier} {q : Polling} {s : Store} {step : PollStep}

theorem names_iff {trackingId rangeId : String} :
    q.names trackingId rangeId = true ↔ ∃ range, q.stage = .accepting range ∧
      q.poll.request.trackingId = trackingId ∧ range.id = rangeId := by
  unfold names
  split <;> simp_all

/-- A turn registers only the range that the poll is about to register. -/
theorem registered_of_event? {e : Event} (he : q.event? m step = some e) {new : NewRange}
    (hnew : new ∈ e.call.registered) : q.stage = .registering new := by
  obtain ⟨poll, stage, alerts⟩ := q
  cases stage <;> cases step <;> cases he <;> simp_all [Call.registered]

/-- A turn accepts the request of the poll only with the range that the poll is about to name. -/
theorem accepted_of_event? {e : Event} (he : q.event? m step = some e) {trackingId id : String}
    {since : Millis} (hmem : (trackingId, .accepted id since) ∈ e.resolved) :
    ∃ range, q.stage = .accepting range ∧ q.poll.request.trackingId = trackingId ∧
      range.id = id := by
  obtain ⟨poll, stage, alerts⟩ := q
  rcases Event.accepted_of_resolved hmem with ⟨_, hcall⟩ | ⟨_, range, hcall, hid, hrange⟩
  · cases stage <;> cases step <;> cases he <;> cases hcall
  · cases stage <;> cases step <;> cases he <;> cases hcall
    exact ⟨range, rfl, hid, hrange⟩

end Polling

theorem Poll.request_of_start? {m : Monitor} {request : ReplenishmentRequest} {lease : Lease}
    {p : Poll} (h : Poll.start? m request lease = some p) : p.request = request := by
  obtain ⟨deadline, -, rfl⟩ := Option.map_eq_some_iff.1 h
  rfl

namespace Office

def start : Office := ⟨.empty, [], []⟩

/-- Whether a request is in the table. -/
def records (o : Office) (request : ReplenishmentRequest) : Bool :=
  o.store.requests.any fun r => r.trackingId = request.trackingId ∧ r.scope = request.scope

/-- Only polls register ranges under tracking ids, and only polls accept requests.  One that is
stopped as soon as it accepted its request does no more than that. -/
def permits (o : Office) : Call → Bool
  | .register _ _ _ new => new.trackingId.isNone
  | .markAccepted trackingId rangeId _ => o.polls.any (·.names trackingId rangeId)
  | .ingest .. | .accept .. => false
  | _ => true

variable (m : Monitor) (v : Verifier)

/-- What an act leads to.  One that is not permitted changes nothing. -/
def after (o : Office) : Act → Office
  | .call e => if o.permits e.call then { o with store := o.store.after e } else o
  | .takeUp request lease =>
    if o.records request then
      { o with polls := o.polls ++ ((Poll.start? m request lease).map Poll.begun).toList }
    else o
  | .go i step =>
    match o.polls[i]? with
    | some q => {
        store := (q.go m v o.store step).2
        polls := o.polls.set i (q.go m v o.store step).1
        deliveries := o.deliveries ++ (q.delivery? step).toList }
    | none => o

/-- What some acts lead to. -/
def run (o : Office) (as : List Act) : Office := as.foldl (after m v) o

end Office

/-! ## Soundness -/

/-- A range is vouched for by what was delivered for a request. -/
structure Vouched (v : Verifier) (ds : List Delivery) (request : ReplenishmentRequest)
    (new : NewRange) : Prop where
  mine : new.trackingId = some request.trackingId
  scope : new.scope = request.scope
  delivered : ∃ d ∈ ds, d.trackingId = request.trackingId ∧
    d.Proves v new.scope new.artifactHash

/-- The request is in the table, whatever became of it. -/
def Recorded (s : Store) (request : ReplenishmentRequest) : Prop :=
  ∃ r ∈ s.requests, r.trackingId = request.trackingId ∧ r.scope = request.scope

/-- What a poll knows between two turns. -/
structure Informed (v : Verifier) (s : Store) (ds : List Delivery) (q : Polling) : Prop where
  recorded : Recorded s q.poll.request
  registering : ∀ new, q.stage = .registering new → Vouched v ds q.poll.request new
  accepting : ∀ range, q.stage = .accepting range → ∃ r ∈ s.ranges,
    r.id = range.id ∧ r.trackingId = some q.poll.request.trackingId

/-- What holds of an office at all times. -/
structure Office.Sound (v : Verifier) (o : Office) : Prop where
  coherent : Coherent o.store
  ids : (o.store.requests.map (·.trackingId)).Nodup
  informed : ∀ q ∈ o.polls, Informed v o.store o.deliveries q
  sourced : ∀ r ∈ o.store.ranges, ∀ trackingId, r.trackingId = some trackingId →
    (∃ row ∈ o.store.requests, row.trackingId = trackingId ∧ row.scope = r.scope) ∧
    ∃ d ∈ o.deliveries, d.trackingId = trackingId ∧ d.Proves v r.scope r.artifactHash
  once : ∀ r ∈ o.store.ranges, ∀ q ∈ o.store.ranges, r.trackingId.isSome →
    r.trackingId = q.trackingId → r = q
  accepted : ∀ row ∈ o.store.requests, ∀ id since, row.state = .accepted id since →
    ∃ r ∈ o.store.ranges, r.id = id ∧ r.trackingId = some row.trackingId

variable {m : Monitor} {v : Verifier} {o : Office} {s t : Store} {ds : List Delivery}

theorem Recorded.of_keeps {request : ReplenishmentRequest} (h : Recorded s request)
    (hkeeps : KeepsRequests s t) : Recorded t request := by
  obtain ⟨r, hr, hid, hscope⟩ := h
  obtain ⟨r', hr', hkept⟩ := hkeeps r hr
  rw [hkept.rest] at hr'
  exact ⟨_, hr', hid, hscope⟩

theorem Vouched.mono {ds' : List Delivery} {request : ReplenishmentRequest} {new : NewRange}
    (h : Vouched v ds request new) (hsub : ds ⊆ ds') : Vouched v ds' request new := by
  obtain ⟨d, hd, hproves⟩ := h.delivered
  exact ⟨h.mine, h.scope, d, hsub hd, hproves⟩

/-- A delivery that is accepted vouches for the range that it stands for. -/
theorem Poll.vouched_of_rangeOf {p : Poll} {a : VerifiedArtifact} {new : NewRange}
    (h : p.rangeOf a = .ok new) {now : Instant} {bytes : ByteArray}
    (hverify : v.verify bytes p.request.series now = .ok a)
    (hd : ⟨p.request.trackingId, now, bytes⟩ ∈ ds) : Vouched v ds p.request new := by
  obtain ⟨hmine, hscope, hfirst, hlast, hhash⟩ := rangeOf_eq_ok h
  have hseries : new.series = p.request.series := (RangeRequest.mk.inj hscope).1
  refine ⟨hmine, hscope, _, hd, rfl, ⟨a, ?_, hfirst.symm, hlast.symm⟩, ?_⟩
  · show v.verify bytes new.series now = .ok a
    rw [hseries]
    exact hverify
  · rw [hhash, (Verifier.verify_eq_ok hverify).hash]

theorem Informed.mono {ds' : List Delivery} {q : Polling} (h : Informed v s ds q)
    (hsub : ds ⊆ ds') : Informed v s ds' q :=
  ⟨h.recorded, fun new hstage => (h.registering new hstage).mono hsub, h.accepting⟩

namespace Office.Sound

theorem start : Office.start.Sound v where
  coherent := .empty
  ids := .nil
  informed := by simp [Office.start]
  sourced := by simp [Office.start]
  once := by simp [Office.start]
  accepted := by simp [Office.start, Store.empty]

theorem deliver (h : o.Sound v) (ds : List Delivery) :
    ({ o with deliveries := o.deliveries ++ ds } : Office).Sound v where
  coherent := h.coherent
  ids := h.ids
  informed q hq := (h.informed q hq).mono (List.subset_append_left ..)
  sourced r hr trackingId hid := by
    obtain ⟨hrow, d, hd, hproves⟩ := h.sourced r hr trackingId hid
    exact ⟨hrow, d, List.mem_append_left _ hd, hproves⟩
  once := h.once
  accepted := h.accepted

theorem employ (h : o.Sound v) {polls : List Polling}
    (hpolls : ∀ q ∈ polls, Informed v o.store o.deliveries q) :
    ({ o with polls := polls } : Office).Sound v :=
  { h with informed := hpolls }

/-! ## The store takes an event -/

/-- A request that is recorded is the only one with its tracking id. -/
theorem eq_of_trackingId (h : o.Sound v) {row row' : RequestRow} (hrow : row ∈ o.store.requests)
    (hrow' : row' ∈ o.store.requests) (hid : row.trackingId = row'.trackingId) : row = row' :=
  List.inj_on_of_nodup_map h.ids hrow hrow' hid

/-- While a request has a range, no other can be registered for it: it would claim the same
numbers. -/
theorem not_registers (h : o.Sound v) {request : ReplenishmentRequest} {new : NewRange}
    (hrecorded : Recorded o.store request) (hvouched : Vouched v ds request new) {id : String}
    (hadmissible : o.store.Admissible id new) {r : RangeRow} (hr : r ∈ o.store.ranges) :
    r.trackingId ≠ new.trackingId := by
  intro hsame
  obtain ⟨row, hrow, hid, hscope⟩ := hrecorded
  obtain ⟨⟨row', hrow', hid', hscope'⟩, -⟩ :=
    h.sourced r hr request.trackingId (hsame.trans hvouched.mine)
  obtain rfl := h.eq_of_trackingId hrow hrow' (hid.trans hid'.symm)
  exact h.coherent.toAligned.scope_ne hadmissible hr
    (hscope'.symm.trans (hscope.trans hvouched.scope.symm))

section Event

variable {e : Event} (hnew : ∀ new ∈ e.call.registered, new.trackingId = none ∨
  ∃ request, Recorded o.store request ∧ Vouched v o.deliveries request new)

/-- A range in another state has the same request, and the same delivery. -/
theorem sourced_of_deed (h : o.Sound v) {r r' : RangeRow} (hr : r ∈ o.store.ranges)
    (hdeed : r.deed = r'.deed) {trackingId : String} (hid : r'.trackingId = some trackingId) :
    (∃ row ∈ (o.store.after e).requests, row.trackingId = trackingId ∧ row.scope = r'.scope) ∧
      ∃ d ∈ o.deliveries, d.trackingId = trackingId ∧ d.Proves v r'.scope r'.artifactHash := by
  obtain ⟨-, hscope, htracking, hhash⟩ := RangeRecord.of_deed hdeed
  obtain ⟨⟨row, hrow, hrowid, hrowscope⟩, d, hd, hdid, hproves⟩ :=
    h.sourced r hr trackingId (htracking.trans hid)
  obtain ⟨row', hrow', hkept⟩ := KeepsRequests.turns (e.turns o.store) row hrow
  rw [hkept.rest] at hrow'
  exact ⟨⟨_, hrow', hrowid, hrowscope.trans hscope⟩, d, hd, hdid, hscope ▸ hhash ▸ hproves⟩

include hnew

theorem sourced_after (h : o.Sound v) {r' : RangeRow} (hr' : r' ∈ (o.store.after e).ranges)
    {trackingId : String} (hid : r'.trackingId = some trackingId) :
    (∃ row ∈ (o.store.after e).requests, row.trackingId = trackingId ∧ row.scope = r'.scope) ∧
      ∃ d ∈ o.deliveries, d.trackingId = trackingId ∧ d.Proves v r'.scope r'.artifactHash := by
  rcases e.range_origin o.store hr' with ⟨r, hr, hdeed⟩ | ⟨id, new, hmem, -, rfl⟩
  · exact h.sourced_of_deed hr hdeed hid
  · have hsome : new.trackingId = some trackingId := hid
    rcases hnew new hmem with hnone | ⟨request, hrecorded, hvouched⟩
    · rw [hnone] at hsome
      cases hsome
    · obtain rfl : request.trackingId = trackingId :=
        Option.some.inj (hvouched.mine.symm.trans hsome)
      obtain ⟨row, hrow, hrowid, hrowscope⟩ := hrecorded.of_keeps (.turns (e.turns o.store))
      exact ⟨⟨row, hrow, hrowid, hrowscope.trans hvouched.scope.symm⟩, hvouched.delivered⟩

theorem once_after (h : o.Sound v) {r' q' : RangeRow} (hr' : r' ∈ (o.store.after e).ranges)
    (hq' : q' ∈ (o.store.after e).ranges) (hsome : r'.trackingId.isSome)
    (hsame : r'.trackingId = q'.trackingId) : r' = q' := by
  rcases e.deeds o.store with hdeeds | ⟨id, new, hmem, hregisters⟩
  · obtain ⟨r, hr, hrdeed⟩ := exists_of_deeds hdeeds hr'
    obtain ⟨q, hq, hqdeed⟩ := exists_of_deeds hdeeds hq'
    obtain ⟨hrid, -, hrtracking, -⟩ := RangeRecord.of_deed hrdeed
    obtain ⟨hqid, -, hqtracking, -⟩ := RangeRecord.of_deed hqdeed
    have hrq : r = q := h.once r hr q hq (hrtracking ▸ hsome)
      (hrtracking.trans (hsame.trans hqtracking.symm))
    exact (h.coherent.after e).eq_of_id hr' hq' (by rw [← hrid, ← hqid, hrq])
  · have hother : ∀ {r : RangeRow}, r ∈ o.store.ranges → new.trackingId.isSome →
        r.trackingId ≠ new.trackingId := by
      intro r hr hnewsome
      rcases hnew new hmem with hnone | ⟨request, hrecorded, hvouched⟩
      · rw [hnone] at hnewsome
        cases hnewsome
      · exact h.not_registers hrecorded hvouched hregisters.admissible hr
    -- Each of the two was there before or is the new one, and these do not share a tracking id.
    rw [hregisters.ranges] at hr' hq'
    rcases List.mem_append.1 hr' with hr | hr <;> rcases List.mem_append.1 hq' with hq | hq
    · exact h.once r' hr q' hq hsome hsame
    · obtain rfl := List.mem_singleton.1 hq
      have hsame : r'.trackingId = new.trackingId := hsame
      exact absurd hsame (hother hr (hsame ▸ hsome))
    · obtain rfl := List.mem_singleton.1 hr
      exact absurd hsame.symm (hother hq hsome)
    · rw [List.mem_singleton.1 hr, List.mem_singleton.1 hq]

/-- An event keeps soundness if it registers nothing but what a recorded request vouches for, and
accepts no request but with its range. -/
theorem event (h : o.Sound v)
    (haccepted : ∀ trackingId id since, (trackingId, .accepted id since) ∈ e.resolved →
      ∃ r ∈ o.store.ranges, r.id = id ∧ r.trackingId = some trackingId) :
    ({ o with store := o.store.after e } : Office).Sound v where
  coherent := h.coherent.after e
  ids := (e.docket o.store).nodup h.ids
  informed q hq := by
    obtain ⟨hrecorded, hregistering, haccepting⟩ := h.informed q hq
    exact ⟨hrecorded.of_keeps (.turns (e.turns o.store)), hregistering,
      fun range hstage => e.exists_named o.store (haccepting range hstage)⟩
  sourced _ hr' _ hid := h.sourced_after hnew hr' hid
  once _ hr' _ hq' hsome hsame := h.once_after hnew hr' hq' hsome hsame
  accepted row' hrow' id since hstate := by
    rcases (e.docket o.store).origin hrow' with hrow | ⟨hpending, -⟩ | ⟨-, -, -, -, hmem⟩
    · exact e.exists_named o.store (h.accepted row' hrow id since hstate)
    · rw [hpending] at hstate
      cases hstate
    · rw [hstate] at hmem
      exact e.exists_named o.store (haccepted _ _ _ hmem)

end Event

/-! ## Acts -/

theorem call (h : o.Sound v) {e : Event} (hpermits : o.permits e.call) :
    ({ o with store := o.store.after e } : Office).Sound v := by
  obtain ⟨clock, call⟩ := e
  refine h.event (fun new hnew => ?_) fun trackingId id since hmem => ?_
  · cases call <;> simp only [Call.registered, List.mem_singleton, List.not_mem_nil] at hnew
    case register limit faulty id new' =>
      subst hnew
      exact .inl (by simpa [permits] using hpermits)
    case ingest => cases hpermits
  · rcases Event.accepted_of_resolved hmem with ⟨moment, rfl⟩ | ⟨poll, range, rfl, -⟩
    · obtain ⟨q, hq, hnames⟩ := List.any_eq_true.1 hpermits
      obtain ⟨range, hstage, rfl, rfl⟩ := Polling.names_iff.1 hnames
      exact (h.informed q hq).accepting range hstage
    · cases hpermits

/-- The event that a turn is for the store keeps soundness. -/
theorem goStore (h : o.Sound v) {q : Polling} (hq : q ∈ o.polls) (step : PollStep) :
    ({ o with store := (q.go m v o.store step).2 } : Office).Sound v := by
  rw [Polling.go_store]
  cases he : q.event? m step with
  | none => exact h
  | some e =>
    have hinformed := h.informed q hq
    refine h.event (e := e) (fun new hnew => ?_) fun trackingId id since hmem => ?_
    · exact .inr ⟨q.poll.request, hinformed.recorded,
        hinformed.registering new (Polling.registered_of_event? he hnew)⟩
    · obtain ⟨range, hstage, rfl, rfl⟩ := Polling.accepted_of_event? he hmem
      exact hinformed.accepting range hstage

/-- A poll keeps what it knows, and learns what its turn is about. -/
theorem goInformed (h : o.Sound v) {q : Polling} (hq : q ∈ o.polls) (step : PollStep) :
    Informed v (q.go m v o.store step).2 (o.deliveries ++ (q.delivery? step).toList)
      (q.go m v o.store step).1 := by
  have hkept : Informed v (q.go m v o.store step).2 o.deliveries q :=
    (h.goStore (m := m) hq step).informed q hq
  have hrequest := Polling.go_request (m := m) (v := v) q o.store step
  have hrecorded : Recorded (q.go m v o.store step).2 (q.go m v o.store step).1.poll.request := by
    rw [hrequest]
    exact hkept.recorded
  rcases Polling.go_stage (m := m) (v := v) q o.store step with hsame |
    ⟨now, bytes, a, new, rfl, ha, hnew, hstage⟩ | ⟨new, range, hbefore, hstage, hrange⟩ | hpassing
  · refine ⟨hrecorded, fun new hstage => ?_, fun range hstage => ?_⟩ <;> rw [hsame] at hstage <;>
      rw [hrequest]
    · exact (hkept.registering new hstage).mono (List.subset_append_left ..)
    · exact hkept.accepting range hstage
  · refine ⟨hrecorded, ?_, by simp [hstage]⟩
    rw [hstage, hrequest]
    rintro _ ⟨⟩
    exact Poll.vouched_of_rangeOf hnew ha (by simp [Polling.delivery?])
  · refine ⟨hrecorded, by simp [hstage], ?_⟩
    rw [hstage, hrequest]
    rintro _ ⟨⟩
    rcases hrange with ⟨faulty, id, now, hregister⟩ | ⟨hstore, existing, hexisting, hmine⟩
    · obtain ⟨-, rfl, -⟩ := register_eq_ok hregister
      refine ⟨new.toRow id now, ?_, rfl, ((h.informed q hq).registering new hbefore).mine⟩
      rw [(register_registers hregister).ranges]
      exact List.mem_append_right _ (List.mem_singleton_self _)
    · obtain ⟨r, hr, hid, htracking⟩ := getRange_eq_ok hexisting
      rw [hstore]
      exact ⟨r, hr, hid, htracking.trans hmine⟩
  · refine ⟨hrecorded, fun new hstage => ?_, fun range hstage => ?_⟩ <;> rw [hstage] at hpassing
    · exact hpassing.elim
    · exact hpassing.elim

theorem after (h : o.Sound v) (a : Act) : (o.after m v a).Sound v := by
  cases a with
  | call e =>
    simp only [Office.after]
    split
    · next hpermits => exact h.call hpermits
    · exact h
  | takeUp request lease =>
    simp only [Office.after]
    split
    · next hrecords =>
      refine h.employ fun q hq => ?_
      rcases List.mem_append.1 hq with hq | hq
      · exact h.informed q hq
      · obtain ⟨p, hp, rfl⟩ := Option.map_eq_some_iff.1 (Option.mem_toList.1 hq)
        obtain ⟨r, hr, hasked⟩ := List.any_eq_true.1 hrecords
        obtain rfl := Poll.request_of_start? hp
        exact ⟨⟨r, hr, by simpa [Poll.begun] using hasked⟩, by simp [Poll.begun], by simp [Poll.begun]⟩
    · exact h
  | go i step =>
    simp only [Office.after]
    split
    · next q hq =>
      have hmem : q ∈ o.polls := List.mem_of_getElem? hq
      refine ((h.goStore hmem step).deliver _).employ fun q' hq' => ?_
      rcases List.mem_or_eq_of_mem_set hq' with hq' | rfl
      · exact ((h.goStore hmem step).informed q' hq').mono (List.subset_append_left ..)
      · exact h.goInformed hmem step
    · exact h

theorem run (h : o.Sound v) (as : List Act) : (o.run m v as).Sound v := by
  induction as generalizing o with
  | nil => exact h
  | cons a as ih => exact ih (h.after a)

end Office.Sound

/-- Over every run of triggers and polls, in which polls may stop anywhere and be taken up again,
and of whatever operators do meanwhile: at most one range carries a given tracking id.  One that does
has the series and bounds of its request, and the hash of bytes that were delivered for it and that
the verifier accepted.  An accepted request names a range that carries its own tracking id. -/
theorem Office.ingestion_sound (m : Monitor) (v : Verifier) (as : List Act) :
    ((Office.start.run m v as).store.ranges.Pairwise fun r q =>
      r.trackingId.isSome → r.trackingId ≠ q.trackingId) ∧
    (∀ r ∈ (Office.start.run m v as).store.ranges, ∀ trackingId, r.trackingId = some trackingId →
      ∃ row, (Office.start.run m v as).store.request? trackingId = some row ∧ row.scope = r.scope ∧
        ∃ d ∈ (Office.start.run m v as).deliveries, d.trackingId = trackingId ∧
          d.Proves v r.scope r.artifactHash) ∧
    ∀ row ∈ (Office.start.run m v as).store.requests, ∀ id since, row.state = .accepted id since →
      ∃ r, (Office.start.run m v as).store.range? id = some r ∧
        r.trackingId = some row.trackingId := by
  have h : (Office.start.run m v as).Sound v := Sound.start.run as
  have haligned := h.coherent.toAligned
  refine ⟨?_, fun r hr trackingId hid => ?_, fun row hrow id since hstate => ?_⟩
  · refine (List.pairwise_map.1 haligned.ids).imp_of_mem fun {r q} hr hq hne hsome hsame => ?_
    exact hne (congrArg (·.id) (h.once r hr q hq hsome hsame))
  · obtain ⟨⟨row, hrow, rfl, hscope⟩, hdelivered⟩ := h.sourced r hr trackingId hid
    exact ⟨row, request?_of_mem h.ids hrow, hscope, hdelivered⟩
  · obtain ⟨r, hr, rfl, htracking⟩ := h.accepted row hrow id since hstate
    exact ⟨r, haligned.range?_of_mem hr, htracking⟩

/-! ## Where polls come from -/

theorem Recorded.of_requests {s t : Store} {request : ReplenishmentRequest}
    (h : Recorded s request) (hsame : t.requests = s.requests) : Recorded t request := by
  unfold Recorded
  rw [hsame]
  exact h

theorem RequestRow.recorded {s : Store} {r : RequestRow} {request : ReplenishmentRequest}
    (hr : r ∈ s.requests) (h : r.toRequest = .ok request) : Recorded s request := by
  obtain ⟨hid, hscope, -⟩ := RequestRow.toRequest_eq_ok h
  exact ⟨r, hr, hid.symm, hscope.symm⟩

/-- Whoever takes up a poll polls a request that is recorded. -/
theorem Monitor.takeUp_recorded {m : Monitor} {s t : Store} {now : Instant}
    {token trackingId : String} {request : ReplenishmentRequest} {lease : Lease}
    (h : m.takeUp s now token trackingId = (.locked request lease, t)) : Recorded t request := by
  have hsame := m.takeUp_requests s now token trackingId
  rw [h] at hsame
  refine Recorded.of_requests ?_ hsame
  unfold Monitor.takeUp at h
  split at h
  · cases h
  · next found hfound =>
    unfold getRequest at hfound
    split at hfound
    · next row hrow =>
      split at h
      · cases h
      · split at h
        · cases h
        · cases h
          exact RequestRow.recorded (request?_eq_some hrow).1 hfound
    · cases hfound

/-- The request that a trigger leaves to be polled. -/
def TriggerOutcome.polled? : TriggerOutcome → Option ReplenishmentRequest
  | .pendingExists request _ | .submitted request _ => some request
  | .alreadyInFlight | .aboveThreshold _ => none

theorem Monitor.prepareLocked_recorded {m : Monitor} {s : Store} {now : Instant} {series : Series}
    {threshold : Nat} {lease : Lease} {outcome : TriggerOutcome} {request : ReplenishmentRequest}
    (h : m.prepareLocked s now series threshold lease = .ok (.inl outcome))
    (hpolled : outcome.polled? = some request) : Recorded s request := by
  unfold prepareLocked at h
  obtain ⟨pending, hpending, h⟩ := bind_eq_ok.1 h
  cases pending with
  | none =>
    simp only at h
    split at h
    · cases h
      cases hpolled
    · obtain ⟨_, -, h⟩ := bind_eq_ok.1 h
      cases h
  | some found =>
    cases h
    cases hpolled
    unfold pendingRequest at hpending
    cases hfind : s.requests.find? fun r => r.series = series ∧ r.isPending with
    | none =>
      rw [hfind] at hpending
      cases hpending
    | some row =>
      rw [hfind, Option.mapM_some] at hpending
      obtain ⟨found, hfound, hpending⟩ := bind_eq_ok.1 hpending
      cases hpending
      exact RequestRow.recorded (List.mem_of_find?_eq_some hfind) hfound

theorem Monitor.prepare_recorded {m : Monitor} {s t : Store} {now later : Instant} {token : String}
    {series : Series} {threshold : Nat} {outcome : TriggerOutcome}
    {request : ReplenishmentRequest}
    (h : m.prepare s now later token series threshold = (.done (.ok outcome), t))
    (hpolled : outcome.polled? = some request) : Recorded t request := by
  unfold Monitor.prepare at h
  split at h
  · cases h
    cases hpolled
  · cases h
  · split at h
    · cases h
    · cases h
      cases hpolled
    · next hlocked =>
      cases h
      exact prepareLocked_recorded hlocked hpolled
    · cases h

theorem Monitor.record_recorded {s t : Store} {draft : Draft} {answer : Except Failure String}
    {outcome : TriggerOutcome} {request : ReplenishmentRequest}
    (h : Monitor.record s draft answer = (.ok outcome, t))
    (hpolled : outcome.polled? = some request) : Recorded t request := by
  unfold Monitor.record at h
  split at h
  · cases h
  · simp only at h
    split at h
    · next u hrecord =>
      cases h
      cases hpolled
      obtain ⟨-, rfl⟩ := recordRequest_eq_ok_iff.1 hrecord
      exact ⟨_, List.mem_append_right _ (List.mem_singleton_self _), rfl, rfl⟩
    · cases h

/-- A trigger that leaves a request to be polled leaves one that is recorded. -/
theorem Workshop.trigger_recorded {M : Type → Type} [Monad M] [LawfulMonad M] (w : Workshop)
    (world : World M) (s : Store) (series : Series) (threshold : Nat) :
    Always (fun out => ∀ outcome request, out.1 = .ok outcome → outcome.polled? = some request →
        Recorded out.2 request)
      (w.trigger world s series threshold) := by
  unfold trigger
  refine .any_bind fun now => .any_bind fun later => .any_bind fun token => ?_
  split
  · next h =>
    refine .pure ?_
    rintro outcome request rfl hpolled
    exact Monitor.prepare_recorded h hpolled
  · next draft t h =>
    refine .any_bind fun answer => .pure ?_
    intro outcome request hres hpolled
    exact Monitor.record_recorded (Prod.ext hres rfl) hpolled

end FolioLedger
