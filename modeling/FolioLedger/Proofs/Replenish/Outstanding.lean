import FolioLedger.Proofs.Ledger.Numbering
import FolioLedger.Proofs.Replenish.Submission
import Mathlib.Data.List.Nodup

/-!
# One outstanding request

Triggers of a series overtake each other while they wait for the authority.  A `Course` is a store
together with the requests that were submitted and wait to be recorded, and with the tokens of all
leases that were given away otherwise.  `Course.Fair` says that a token is fresh when it is drawn,
that a lease is shown by nobody who did not get it, that only waiting requests are recorded, and
that no clock passes the deadline of a lease of the series while its request waits.

A request that waits holds the lock of its series (`Course.Sound`).  So at a submission no other
request of the series waits and none is pending, and each earlier one was recorded and resolved, if
its call did not end with an error (`one_outstanding_request`).
-/

namespace FolioLedger

open Store

/-- The request that an event submits. -/
def Store.submission? (s : Store) (e : Event) : Option Draft :=
  match e.call with
  | .prepare monitor later token series threshold =>
    match (monitor.prepare s e.clock later token series threshold).1 with
    | .submit draft => some draft
    | .done _ => none
  | _ => none

theorem Store.submission?_eq_some {s : Store} {e : Event} {draft : Draft}
    (h : s.submission? e = some draft) :
    ∃ token, e.call.drawn = [token] ∧ e.call.recorded = [] ∧
      draft.Submitted s e.clock token (s.after e) := by
  obtain ⟨clock, call⟩ := e
  cases call with
  | prepare monitor later token series threshold =>
    simp only [submission?] at h
    cases hprepare : monitor.prepare s clock later token series threshold with
    | mk step t =>
      rw [hprepare] at h
      cases step with
      | done outcome => cases h
      | submit draft' =>
        obtain rfl : draft' = draft := Option.some.inj h
        have hsubmitted := (Monitor.prepare_submitted hprepare).2
        refine ⟨token, rfl, rfl, ?_⟩
        simp only [after, hprepare]
        exact hsubmitted
  | _ => cases h

/-- A store, the requests that wait to be recorded and the tokens that were given away. -/
structure Course where
  store : Store
  waiting : List Draft
  handed : List String

namespace Course

def start : Course := ⟨.empty, [], []⟩

/-- The lease of a trigger that submits stays with the request that waits.  It is given away when
the request is recorded, and any other lease when it is taken. -/
def after (k : Course) (e : Event) : Course where
  store := k.store.after e
  waiting := k.waiting.filter (· ∉ e.call.recorded) ++ (k.store.submission? e).toList
  handed := if (k.store.submission? e).isSome then k.handed else e.call.tokens ++ k.handed

def run (k : Course) (es : List Event) : Course := es.foldl after k

/-- What can be relied on when an event happens. -/
structure Allows (k : Course) (series : Series) (e : Event) : Prop where
  late : 0 < e.clock.toMillis
  inTime : ∀ d ∈ k.waiting, d.request.series = series →
    e.clock.toMillis ≤ d.lease.deadline.toMillis
  fresh : ∀ token ∈ e.call.drawn, token ∉ k.handed ∧ ∀ d ∈ k.waiting, d.lease.token ≠ token
  shown : ∀ token ∈ e.call.shown, token ∈ k.handed
  recorded : ∀ d ∈ e.call.recorded, d ∈ k.waiting

instance (k : Course) (series : Series) (e : Event) : Decidable (k.Allows series e) :=
  decidable_of_iff
    (0 < e.clock.toMillis ∧
      (∀ d ∈ k.waiting, d.request.series = series →
        e.clock.toMillis ≤ d.lease.deadline.toMillis) ∧
      (∀ token ∈ e.call.drawn, token ∉ k.handed ∧ ∀ d ∈ k.waiting, d.lease.token ≠ token) ∧
      (∀ token ∈ e.call.shown, token ∈ k.handed) ∧ ∀ d ∈ e.call.recorded, d ∈ k.waiting)
    ⟨fun ⟨h1, h2, h3, h4, h5⟩ => ⟨h1, h2, h3, h4, h5⟩,
      fun ⟨h1, h2, h3, h4, h5⟩ => ⟨h1, h2, h3, h4, h5⟩⟩

/-- Every event of a run may be relied on. -/
def Fair (k : Course) (series : Series) : List Event → Prop
  | [] => True
  | e :: es => k.Allows series e ∧ (k.after e).Fair series es

instance decidableFair (k : Course) (series : Series) : (es : List Event) →
    Decidable (k.Fair series es)
  | [] => inferInstanceAs (Decidable True)
  | e :: es =>
    have := decidableFair (k.after e) series es
    inferInstanceAs (Decidable (k.Allows series e ∧ (k.after e).Fair series es))

variable {k : Course} {series : Series} {e : Event} {d : Draft}

/-! ## Courses in steps -/

@[simp] theorem run_cons (k : Course) (e : Event) (es : List Event) :
    k.run (e :: es) = (k.after e).run es := rfl

theorem run_append (k : Course) (es fs : List Event) : k.run (es ++ fs) = (k.run es).run fs :=
  List.foldl_append

theorem run_store (k : Course) (es : List Event) : (k.run es).store = k.store.run es := by
  induction es generalizing k with
  | nil => rfl
  | cons e es ih => exact ih (k.after e)

theorem Fair.append {es fs : List Event} (h : k.Fair series (es ++ fs)) :
    k.Fair series es ∧ (k.run es).Fair series fs := by
  induction es generalizing k with
  | nil => exact ⟨trivial, h⟩
  | cons e es ih =>
    obtain ⟨hes, hfs⟩ := ih h.2
    exact ⟨⟨h.1, hes⟩, hfs⟩

theorem waiting_of_none (hsub : k.store.submission? e = none) :
    (k.after e).waiting = k.waiting.filter (· ∉ e.call.recorded) := by
  simp [Course.after, hsub]

theorem waiting_of_submission (hsub : k.store.submission? e = some d) :
    (k.after e).waiting = k.waiting ++ [d] := by
  obtain ⟨token, -, hrecorded, -⟩ := submission?_eq_some hsub
  simp [Course.after, hsub, hrecorded]

/-! ## Waiting requests hold their locks -/

/-- Each waiting request has a lease of its own, and one of the series holds the lock. -/
structure Sound (k : Course) (series : Series) : Prop where
  apart : (k.waiting.map (·.lease.token)).Nodup
  unhanded : ∀ d ∈ k.waiting, d.lease.token ∉ k.handed
  held : ∀ d ∈ k.waiting, d.request.series = series → 0 < d.lease.deadline.toMillis ∧
    k.store.Holds (Lock.replenishment series) d.lease.token d.lease.deadline.toMillis

theorem Sound.start : start.Sound series := ⟨.nil, by simp [Course.start], by simp [Course.start]⟩

/-- Nobody else touches the lease of a request that goes on waiting. -/
theorem Sound.not_mem_tokens (h : k.Sound series) (ha : k.Allows series e)
    (hd : d ∈ k.waiting.filter (· ∉ e.call.recorded)) : d.lease.token ∉ e.call.tokens := by
  obtain ⟨hd, hgoes⟩ := List.mem_filter.1 hd
  have hgoes : d ∉ e.call.recorded := by simpa using hgoes
  unfold Call.tokens
  rw [List.mem_append, List.mem_append, List.mem_map]
  rintro ((hdrawn | hshown) | ⟨d', hd', htoken⟩)
  · exact (ha.fresh _ hdrawn).2 d hd rfl
  · exact h.unhanded d hd (ha.shown _ hshown)
  · obtain rfl := List.inj_on_of_nodup_map h.apart (ha.recorded d' hd') hd htoken
    exact hgoes hd'

/-- While a request of the series waits, its lock is not free. -/
theorem Sound.not_expired (h : k.Sound series) (ha : k.Allows series e) (hd : d ∈ k.waiting)
    (hseries : d.request.series = series) :
    Lock.isExpired d.lease.deadline.toMillis e.clock.toMillis = false :=
  Lock.isExpired_eq_false (h.held d hd hseries).1 (ha.inTime d hd hseries)

/-- A request that goes on waiting keeps its lock. -/
theorem Sound.still_held (h : k.Sound series) (ha : k.Allows series e)
    (hd : d ∈ k.waiting.filter (· ∉ e.call.recorded)) (hseries : d.request.series = series) :
    0 < d.lease.deadline.toMillis ∧ (k.store.after e).Holds (Lock.replenishment series)
      d.lease.token d.lease.deadline.toMillis := by
  have hwaits : d ∈ k.waiting := (List.mem_filter.1 hd).1
  obtain ⟨hpos, hholds⟩ := h.held d hwaits hseries
  exact ⟨hpos, hholds.turns (e.turns k.store) (h.not_mem_tokens ha hd)
    (h.not_expired ha hwaits hseries)⟩

theorem Sound.after_of_none (h : k.Sound series) (ha : k.Allows series e)
    (hsub : k.store.submission? e = none) : (k.after e).Sound series := by
  have hwaiting := waiting_of_none hsub
  have hhanded : (k.after e).handed = e.call.tokens ++ k.handed := by simp [Course.after, hsub]
  refine ⟨?_, ?_, ?_⟩
  · rw [hwaiting]
    exact h.apart.sublist (List.filter_sublist.map _)
  · rw [hwaiting, hhanded]
    intro d hd hmem
    rcases List.mem_append.1 hmem with hmem | hmem
    · exact h.not_mem_tokens ha hd hmem
    · exact h.unhanded d (List.mem_filter.1 hd).1 hmem
  · rw [hwaiting]
    intro d hd hseries
    exact h.still_held ha hd hseries

theorem Sound.after_of_submission (h : k.Sound series) (ha : k.Allows series e) {draft : Draft}
    (hsub : k.store.submission? e = some draft) : (k.after e).Sound series := by
  obtain ⟨token, hdrawn, hrecorded, hsubmitted⟩ := submission?_eq_some hsub
  have hwaiting := waiting_of_submission hsub
  have hhanded : (k.after e).handed = k.handed := by simp [Course.after, hsub]
  have htoken : draft.lease.token = token := hsubmitted.grants.drawn
  obtain ⟨hunhanded, hunused⟩ := ha.fresh token (by rw [hdrawn]; exact List.mem_singleton_self _)
  refine ⟨?_, ?_, ?_⟩
  · rw [hwaiting, List.map_append, List.nodup_append]
    refine ⟨h.apart, by simp, ?_⟩
    intro a ha' b hb
    obtain ⟨d, hd, rfl⟩ := List.mem_map.1 ha'
    obtain rfl : b = draft.lease.token := by simpa using hb
    exact htoken ▸ hunused d hd
  · rw [hwaiting, hhanded]
    intro d hd
    rcases List.mem_append.1 hd with hd | hd
    · exact h.unhanded d hd
    · obtain rfl := List.mem_singleton.1 hd
      exact htoken ▸ hunhanded
  · rw [hwaiting]
    intro d hd hseries
    rcases List.mem_append.1 hd with hd | hd
    · exact h.still_held ha (by simp [hd, hrecorded]) hseries
    · obtain rfl := List.mem_singleton.1 hd
      refine ⟨hsubmitted.grants.deadline_pos ha.late, ?_⟩
      rw [htoken, ← hseries]
      exact hsubmitted.grants.holds

theorem Sound.after (h : k.Sound series) (ha : k.Allows series e) : (k.after e).Sound series := by
  cases hsub : k.store.submission? e with
  | none => exact h.after_of_none ha hsub
  | some draft => exact h.after_of_submission ha hsub

theorem Sound.run (h : k.Sound series) {es : List Event} (hfair : k.Fair series es) :
    (k.run es).Sound series := by
  induction es generalizing k with
  | nil => exact h
  | cons e es ih => exact ih (h.after hfair.1) hfair.2

/-- At a submission no request of the series waits. -/
theorem Sound.not_waiting (h : k.Sound series) (ha : k.Allows series e)
    (hsub : k.store.submission? e = some d) (hseries : d.request.series = series) :
    ∀ d' ∈ k.waiting, d'.request.series ≠ series := by
  intro d' hd' hseries'
  obtain ⟨token, -, -, hsubmitted⟩ := submission?_eq_some hsub
  have hfree := hsubmitted.grants.free _ _ (hseries ▸ (h.held d' hd' hseries').2)
  rw [h.not_expired ha hd' hseries'] at hfree
  cases hfree

/-! ## From one submission to the next -/

theorem mem_waiting_of_submission (hsub : k.store.submission? e = some d) :
    d ∈ (k.after e).waiting := by
  rw [waiting_of_submission hsub]
  exact List.mem_append_right _ (List.mem_singleton_self d)

/-- A request waits until it is recorded. -/
theorem waiting_or_recorded (hd : d ∈ k.waiting) (es : List Event) :
    d ∈ (k.run es).waiting ∨
      ∃ es₁ clock answer es₂, es = es₁ ++ ⟨clock, .record d answer⟩ :: es₂ := by
  induction es generalizing k with
  | nil => exact .inl hd
  | cons e es ih =>
    by_cases hrecorded : d ∈ e.call.recorded
    · obtain ⟨clock, call⟩ := e
      cases call with
      | record draft answer =>
        obtain rfl : d = draft := List.mem_singleton.1 hrecorded
        exact .inr ⟨[], clock, answer, es, rfl⟩
      | _ => cases hrecorded
    · have hd' : d ∈ (k.after e).waiting := by simp [Course.after, hd, hrecorded]
      rcases ih hd' with hwaits | ⟨es₁, clock, answer, es₂, rfl⟩
      · exact .inl hwaits
      · exact .inr ⟨e :: es₁, clock, answer, es₂, rfl⟩

/-- Whenever a request of a series is submitted, no request of the series is pending and none waits
to be recorded.  So each earlier one went on to be recorded, which failed or led to a request that
is resolved by now. -/
theorem one_outstanding_request {es : List Event} {draft : Draft} (hfair : start.Fair series es)
    (hallows : (start.run es).Allows series e)
    (hsub : (Store.empty.run es).submission? e = some draft)
    (hseries : draft.request.series = series) :
    (∀ r ∈ (Store.empty.run es).requests, r.series = series → r.state ≠ .pending) ∧
    (∀ d ∈ (start.run es).waiting, d.request.series ≠ series) ∧
    ∀ es₁ e₁ es₂ earlier, es = es₁ ++ e₁ :: es₂ →
      (Store.empty.run es₁).submission? e₁ = some earlier → earlier.request.series = series →
      ∃ es₃ clock answer es₄, es₂ = es₃ ++ ⟨clock, .record earlier answer⟩ :: es₄ ∧
        earlier.Closed answer (Store.empty.run (es₁ ++ e₁ :: es₃)) (Store.empty.run es) := by
  have hsound : (start.run es).Sound series := Sound.start.run hfair
  have hstore : ∀ fs, (start.run fs).store = Store.empty.run fs := run_store start
  have hidle : ∀ r ∈ (Store.empty.run es).requests, r.series = series → r.state ≠ .pending := by
    obtain ⟨token, -, -, hsubmitted⟩ := submission?_eq_some hsub
    exact hseries ▸ hsubmitted.idle
  have hnone := hsound.not_waiting hallows ((hstore es).symm ▸ hsub) hseries
  refine ⟨hidle, hnone, ?_⟩
  rintro es₁ e₁ es₂ earlier rfl hearlier hsame
  have hwaits : earlier ∈ ((start.run es₁).after e₁).waiting :=
    mem_waiting_of_submission ((hstore es₁).symm ▸ hearlier)
  have hrun : start.run (es₁ ++ e₁ :: es₂) = ((start.run es₁).after e₁).run es₂ := run_append ..
  rcases waiting_or_recorded hwaits es₂ with hstill | ⟨es₃, clock, answer, es₄, rfl⟩
  · rw [← hrun] at hstill
    exact absurd hsame (hnone earlier hstill)
  · refine ⟨es₃, clock, answer, es₄, rfl, earlier.closed_of_idle answer ?_ (hsame.symm ▸ hidle)⟩
    have hlast : Store.empty.run (es₁ ++ e₁ :: (es₃ ++ ⟨clock, .record earlier answer⟩ :: es₄)) =
        (Monitor.record (Store.empty.run (es₁ ++ e₁ :: es₃)) earlier answer).2.run es₄ := by
      simp only [Store.run_append, Store.run_cons]
      rfl
    rw [hlast]
    exact KeepsRequests.run _ es₄

/-- The request that `overtaking` submits first. -/
def overtaken : Draft := ⟨⟨⟨"A", "T"⟩, 1, 5⟩, earlyAt 1, ⟨"replenish:A:T", "first", 1, earlyAt 21⟩⟩

/-- A trigger waits for the authority and records its request, which is rejected then.  Another
comes while it waits. -/
def overtaking : List Event :=
  [⟨earlyAt 1, .prepare ⟨5, 10, 20000, 60⟩ (earlyAt 1) "first" ⟨"A", "T"⟩ 3⟩,
   ⟨earlyAt 2, .prepare ⟨5, 10, 20000, 60⟩ (earlyAt 2) "second" ⟨"A", "T"⟩ 3⟩,
   ⟨earlyAt 3, .record overtaken (.ok "trk-1")⟩,
   ⟨earlyAt 4, .markRejected "trk-1" "no numbers left" (earlyAt 4)⟩,
   ⟨earlyAt 5, .release overtaken.lease⟩]

/-- The next trigger submits, and the request of the first one is resolved by then. -/
theorem one_outstanding_request_overtaking :
    ∃ es₃ clock answer es₄, overtaking.tail = es₃ ++ ⟨clock, .record overtaken answer⟩ :: es₄ ∧
      overtaken.Closed answer (Store.empty.run (overtaking.take 1 ++ es₃))
        (Store.empty.run overtaking) := by
  have hfair : start.Fair ⟨"A", "T"⟩ overtaking := by decide
  have hallows : (start.run overtaking).Allows ⟨"A", "T"⟩
      ⟨earlyAt 6, .prepare ⟨5, 10, 20000, 60⟩ (earlyAt 6) "third" ⟨"A", "T"⟩ 3⟩ := by decide
  have hsub : (Store.empty.run overtaking).submission?
      ⟨earlyAt 6, .prepare ⟨5, 10, 20000, 60⟩ (earlyAt 6) "third" ⟨"A", "T"⟩ 3⟩ =
        some ⟨⟨⟨"A", "T"⟩, 1, 5⟩, earlyAt 6, ⟨"replenish:A:T", "third", 2, earlyAt 26⟩⟩ := by decide
  obtain ⟨-, -, hearlier⟩ := one_outstanding_request hfair hallows hsub rfl
  exact hearlier [] _ _ overtaken rfl (by decide) rfl

end Course

end FolioLedger
