import FolioLedger.Proofs.Ledger.Frame
import FolioLedger.Watch
import Mathlib.Logic.Relation

/-!
# Runs

Everything that can be asked of a store is a `Call`; an `Event` is a call together with what its
caller's clock reads, and a run is a list of events.  Clocks are not coordinated: no reading bounds
any other.  A trigger is `prepare` and then `record`, a poll is a lease (from a trigger or `takeUp`)
and then any of the calls from `tick` to `cancel`.  Each call is one stretch of work on the store
that nobody interrupts, so a run covers every interleaving, and every trigger or poll that stops
halfway.

`Event.handsOut_or_edits` says what an event does to the ledger, and `run_induction` carries an
invariant of the store and of the folios handed out so far over a run.
-/

namespace FolioLedger

/-- What may be asked of a store. -/
inductive Call where
  /-- `faulty` is a number whose folio the medium refuses. -/
  | register (limit : Nat) (faulty : Option Nat) (id : String) (new : NewRange)
  | assign (desk : Desk) (series : Series) (document : Option String)
  | void (desk : Desk) (series : Series) (number : Nat) (reason : String)
  | bind (series : Series) (number : Nat) (document : String)
  | expire (moment : Instant)
  | markNearExpiry (id : String) (moment : Instant)
  | recordRequest (r : ReplenishmentRequest)
  | markAccepted (trackingId rangeId : String) (moment : Instant)
  | markRejected (trackingId reason : String) (moment : Instant)
  | markTimedOut (trackingId : String) (moment : Instant)
  | acquire (ttl : Nat) (token key : String)
  | renew (ttl : Nat) (lease : Lease)
  | release (lease : Lease)
  | sweep (watch : Watch) (moment : Instant)
  /-- A trigger up to the submission of its request.  `later` is its second reading of the clock. -/
  | prepare (monitor : Monitor) (later : Instant) (token : String) (series : Series)
      (threshold : Nat)
  /-- A trigger from the answer to its submission. -/
  | record (draft : Draft) (answer : Except Failure String)
  | takeUp (monitor : Monitor) (token trackingId : String)
  /-- `later` is the second reading of the clock. -/
  | tick (monitor : Monitor) (poll : Poll) (later : Instant)
  | answered (poll : Poll) (since : Instant) (answer : Except Failure AuthorityStatus)
  /-- A poll registers the range of a verified artifact. -/
  | ingest (monitor : Monitor) (faulty : Option Nat) (id : String) (poll : Poll) (new : NewRange)
  | accept (poll : Poll) (range : Range)
  | reject (poll : Poll) (failure : Failure)
  | cancel (poll : Poll)

/-- A call, and what the clock of its caller reads, at first. -/
structure Event where
  clock : Instant
  call : Call

namespace Store

/-- The store after an operation.  One that fails leaves the store that it found. -/
def keep (s : Store) : Except Failure Store → Store
  | .ok t => t
  | .error _ => s

/-- What holds before an operation holds after it, if success preserves it. -/
theorem keep_of {s : Store} {P : Store → Prop} {res : Except Failure Store} (hs : P s)
    (h : ∀ t, res = .ok t → P t) : P (s.keep res) := by
  cases res with
  | ok t => exact h t rfl
  | error _ => exact hs

theorem keep_snd_of {α : Type} {s : Store} {P : Store → Prop} {res : Except Failure (α × Store)}
    (hs : P s) (h : ∀ a t, res = .ok (a, t) → P t) : P (s.keep (res.map Prod.snd)) := by
  cases res with
  | ok r => exact h r.1 r.2 rfl
  | error _ => exact hs

/-- The store after an event. -/
def after (s : Store) (e : Event) : Store :=
  match e.call with
  | .register limit faulty id new =>
    s.keep ((s.register limit faulty id e.clock new).map Prod.snd)
  | .assign desk series document => (desk.assign s e.clock series document).2.1
  | .void desk series number reason => (desk.void s e.clock series number reason).2.1
  | .bind series number document => s.keep ((s.bind series number document).map Prod.snd)
  | .expire moment => s.keep ((s.expire moment).map Prod.snd)
  | .markNearExpiry id moment => (s.markNearExpiry id moment).2
  | .recordRequest r => s.keep (s.recordRequest r)
  | .markAccepted trackingId rangeId moment => s.keep (s.markAccepted trackingId rangeId moment)
  | .markRejected trackingId reason moment => s.keep (s.markRejected trackingId reason moment)
  | .markTimedOut trackingId moment => s.keep (s.markTimedOut trackingId moment)
  | .acquire ttl token key => (s.acquire e.clock ttl token key).2
  | .renew ttl lease => (s.renew e.clock ttl lease).2
  | .release lease => s.release lease
  | .sweep watch moment => (watch.sweep s moment).2.1
  | .prepare monitor later token series threshold =>
    (monitor.prepare s e.clock later token series threshold).2
  | .record draft answer => (Monitor.record s draft answer).2
  | .takeUp monitor token trackingId => (monitor.takeUp s e.clock token trackingId).2
  | .tick monitor poll later => (poll.tick monitor s e.clock later).2.1
  | .answered poll since answer => (poll.answered s since answer).2.1
  | .ingest monitor faulty id poll new => (poll.register monitor faulty s id e.clock new).2
  | .accept poll range => (poll.accept s e.clock range).2
  | .reject poll failure => (poll.reject s e.clock failure).2.1
  | .cancel poll => (poll.cancel s).2

/-- The folio that an event hands out. -/
def handout? (s : Store) (e : Event) : Option Handout :=
  match e.call with
  | .assign desk series document =>
    match (desk.assign s e.clock series document).1 with
    | .ok a => some ⟨e.clock, a.folio⟩
    | .error _ => none
  | _ => none

/-- The store after some events. -/
def run (s : Store) (es : List Event) : Store :=
  es.foldl after s

/-- The folios that some events hand out, in order. -/
def handouts : Store → List Event → List Handout
  | _, [] => []
  | s, e :: es => (s.handout? e).toList ++ (s.after e).handouts es

/-! ## Runs in steps -/

@[simp] theorem run_nil (s : Store) : s.run [] = s := rfl

@[simp] theorem run_cons (s : Store) (e : Event) (es : List Event) :
    s.run (e :: es) = (s.after e).run es := rfl

theorem run_append (s : Store) (es fs : List Event) : s.run (es ++ fs) = (s.run es).run fs :=
  List.foldl_append

theorem handouts_append (s : Store) (es fs : List Event) :
    s.handouts (es ++ fs) = s.handouts es ++ (s.run es).handouts fs := by
  induction es generalizing s with
  | nil => rfl
  | cons e es ih => simp [handouts, ih]

/-- What holds before a run and is kept by each event holds after the run.  It may speak of the
folios handed out so far. -/
theorem run_induction {P : Store → List Handout → Prop} {s : Store} (es : List Event)
    (start : P s [])
    (step : ∀ t hs e, e ∈ es → P t hs → P (t.after e) (hs ++ (t.handout? e).toList)) :
    P (s.run es) (s.handouts es) := by
  induction es using List.reverseRecOn with
  | nil => exact start
  | append_singleton es e ih =>
    rw [run_append, handouts_append]
    have hes := ih fun t hs e' he' => step t hs e' (List.mem_append_left _ he')
    simpa [handouts] using step _ _ e (by simp) hes

end Store

open Store Relation

/-! ## What a sweep is made of -/

/-- A sweep expires ranges, and marks one range after another. -/
inductive Watch.Moves (now : Instant) : Store → Store → Prop
  | expire {s t : Store} {expired : List Range} (h : s.expire now = .ok (expired, t)) : Moves now s t
  | mark (s : Store) (id : String) : Moves now s (s.markNearExpiry id now).2

namespace Watch

variable {s t : Store} {now : Instant}

theorem Moves.edit (h : Moves now s t) : Edit s t := by
  cases h with
  | expire h => exact expire_edit h
  | mark id => exact markNearExpiry_edit s id now

theorem warnAll_moves (w : Watch) (now : Instant) (s : Store) (rs : List Range) :
    ReflTransGen (Moves now) s (w.warnAll now s rs).2 := by
  induction rs generalizing s with
  | nil => exact .refl
  | cons r rs ih => exact .head (.mark s r.id) (ih _)

theorem sweep_moves (w : Watch) (s : Store) (now : Instant) :
    ReflTransGen (Moves now) s (w.sweep s now).2.1 := by
  unfold Watch.sweep
  split
  · exact .refl
  · next expired t h =>
    have hexpire : ReflTransGen (Moves now) s t := .single (.expire h)
    simp only
    split
    · exact hexpire
    · next active _ =>
      have hwarn := hexpire.trans (w.warnAll_moves now t (w.nearExpiry now active))
      split <;> exact hwarn

end Watch

/-! ## What an event does to the ledger -/

/-- The call may do something to ranges or folios. -/
def Call.touchesLedger : Call → Bool
  | .register .. | .assign .. | .void .. | .bind .. | .expire _ | .markNearExpiry .. | .sweep ..
  | .ingest .. => true
  | _ => false

/-- Calls about requests, locks and polls leave the ledger alone. -/
theorem Event.sameLedger {s : Store} {e : Event} (h : e.call.touchesLedger = false) :
    SameLedger s (s.after e) := by
  obtain ⟨clock, call⟩ := e
  cases call with
  | recordRequest => exact keep_of (.refl s) fun _ h => recordRequest_sameLedger h
  | markAccepted => exact keep_of (.refl s) fun _ h => resolve_sameLedger h
  | markRejected => exact keep_of (.refl s) fun _ h => resolve_sameLedger h
  | markTimedOut => exact keep_of (.refl s) fun _ h => resolve_sameLedger h
  | acquire ttl token key => exact s.acquire_sameLedger clock ttl token key
  | renew ttl lease => exact s.renew_sameLedger clock ttl lease
  | release lease => exact s.release_sameLedger lease
  | prepare monitor later token series threshold =>
    exact monitor.prepare_sameLedger s clock later token series threshold
  | record draft answer => exact Monitor.record_sameLedger s draft answer
  | takeUp monitor token trackingId => exact monitor.takeUp_sameLedger s clock token trackingId
  | tick monitor poll later => exact poll.tick_sameLedger s monitor clock later
  | answered poll since answer => exact poll.answered_sameLedger s since answer
  | accept poll range => exact poll.accept_sameLedger s clock range
  | reject poll failure => exact poll.reject_sameLedger s clock failure
  | cancel poll => exact poll.cancel_sameLedger s
  | _ => cases h

theorem Watch.sweep_edits (w : Watch) (s : Store) (now : Instant) :
    ReflTransGen Edit s (w.sweep s now).2.1 :=
  ReflTransGen.mono (fun _ _ hmove => hmove.edit) _ _ (w.sweep_moves s now)

theorem Desk.assign_handsOut (d : Desk) (s : Store) (now : Instant) (series : Series)
    (document : Option String) :
    (∃ a row, (d.assign s now series document).1 = .ok a ∧
      s.HandsOut ⟨now, a.folio⟩ document row (d.assign s now series document).2.1) ∨
    ∃ failure, (d.assign s now series document).1 = .error failure ∧
      (d.assign s now series document).2.1 = s := by
  unfold Desk.assign
  cases h : s.assign now series document with
  | ok res =>
    obtain ⟨row, hout⟩ := Store.assign_handsOut h
    exact .inl ⟨res.1, row, rfl, hout⟩
  | error failure => exact .inr ⟨failure, rfl, rfl⟩

theorem Desk.void_edit (d : Desk) (s : Store) (now : Instant) (series : Series) (number : Nat)
    (reason : String) : Edit s (d.void s now series number reason).2.1 := by
  unfold Desk.void
  split
  · next h => exact Store.void_edit h
  · exact .aside (.refl s)

/-- An event hands out one folio, or changes the ledger by edits and hands out none. -/
theorem Event.handsOut_or_edits (s : Store) (e : Event) :
    (∃ h document row, s.handout? e = some h ∧ h.clock = e.clock ∧
      s.HandsOut h document row (s.after e)) ∨
    (s.handout? e = none ∧ ReflTransGen Edit s (s.after e)) := by
  obtain ⟨clock, call⟩ := e
  cases call with
  | assign desk series document =>
    rcases desk.assign_handsOut s clock series document with ⟨a, row, ha, hout⟩ | ⟨failure, hf, hs⟩
    · refine .inl ⟨⟨clock, a.folio⟩, document, row, ?_, rfl, hout⟩
      simp only [handout?, ha]
    · refine .inr ⟨?_, ?_⟩
      · simp only [handout?, hf]
      · simp only [after, hs, ReflTransGen.refl]
  | register => exact .inr ⟨rfl, .single (keep_snd_of (.aside (.refl s)) fun _ _ h => register_edit h)⟩
  | void desk series number reason =>
    exact .inr ⟨rfl, .single (desk.void_edit s clock series number reason)⟩
  | bind => exact .inr ⟨rfl, .single (keep_snd_of (.aside (.refl s)) fun _ _ h => bind_edit h)⟩
  | expire => exact .inr ⟨rfl, .single (keep_snd_of (.aside (.refl s)) fun _ _ h => expire_edit h)⟩
  | markNearExpiry id moment => exact .inr ⟨rfl, .single (markNearExpiry_edit s id moment)⟩
  | sweep watch moment => exact .inr ⟨rfl, watch.sweep_edits s moment⟩
  | ingest monitor faulty id poll new =>
    exact .inr ⟨rfl, .single (poll.register_edit s monitor faulty id clock new)⟩
  | _ => exact .inr ⟨rfl, .single (.aside (Event.sameLedger rfl))⟩

theorem Event.handsOut_of_handout? {s : Store} {e : Event} {out : Handout}
    (h : s.handout? e = some out) :
    out.clock = e.clock ∧ ∃ document row, s.HandsOut out document row (s.after e) := by
  rcases e.handsOut_or_edits s with ⟨out', document, row, hsome, hclock, hout⟩ | ⟨hnone, -⟩
  · obtain rfl : out' = out := Option.some.inj (hsome.symm.trans h)
    exact ⟨hclock, document, row, hout⟩
  · rw [hnone] at h
    cases h

/-- What a run hands out is handed out by one of its events. -/
theorem Store.exists_handsOut_of_mem {s : Store} {es : List Event} {out : Handout}
    (h : out ∈ s.handouts es) :
    ∃ es₁ e es₂ document row, es = es₁ ++ e :: es₂ ∧ out.clock = e.clock ∧
      (s.run es₁).HandsOut out document row ((s.run es₁).after e) := by
  induction es generalizing s with
  | nil => simp [handouts] at h
  | cons e es ih =>
    rcases List.mem_append.1 h with hfirst | hrest
    · obtain ⟨hclock, document, row, hout⟩ :=
        Event.handsOut_of_handout? (Option.mem_toList.1 hfirst)
      exact ⟨[], e, es, document, row, rfl, hclock, hout⟩
    · obtain ⟨es₁, e', es₂, document, row, rfl, hclock, hout⟩ := ih hrest
      exact ⟨e :: es₁, e', es₂, document, row, rfl, hclock, hout⟩

end FolioLedger
