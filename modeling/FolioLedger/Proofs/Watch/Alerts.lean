import FolioLedger.Proofs.Ledger.Numbering
import FolioLedger.Proofs.Watch.Sweep
import Mathlib.Data.List.Count

/-!
# Alerts about ranges are raised once

Ranges are expired and warned about by sweeps, at whatever instants and however clocks go.  In a run in
which nobody else does either, the alerts about a range count its marks: there is one loss if it is
recorded as expired, one warning if its mark was set, and none otherwise (`Store.Told`).  Each event
keeps this (`Store.Told.after`).  So every loss is told once, by the sweep that moved the range, and no
range is warned about twice, or after its loss (`Store.range_alerts_once`).
-/

namespace FolioLedger

open Store

/-- The range that an alert tells the loss of. -/
def Alert.lostRange? : Alert → Option String
  | .rangeExpired _ id _ => some id
  | _ => none

/-- The range that an alert warns about. -/
def Alert.warnedRange? : Alert → Option String
  | .rangeNearExpiry _ id .. => some id
  | _ => none

theorem Alert.lostRange?_eq_some {a : Alert} {id : String} :
    a.lostRange? = some id ↔ ∃ series remaining, a = .rangeExpired series id remaining := by
  cases a <;> simp [lostRange?]

theorem Alert.warnedRange?_eq_some {a : Alert} {id : String} : a.warnedRange? = some id ↔
    ∃ series days remaining, a = .rangeNearExpiry series id days remaining := by
  cases a <;> simp [warnedRange?]

/-- The calls that expire or mark a range, and are no sweep. -/
def Call.bypassesWatch : Call → Bool
  | .expire _ | .markNearExpiry .. => true
  | _ => false

namespace Store

/-- The alerts that an event raises. -/
def raised (s : Store) (e : Event) : List Alert :=
  match e.call with
  | .assign desk series document => (desk.assign s e.clock series document).2.2.alerts
  | .void desk series number reason => (desk.void s e.clock series number reason).2.2.alerts
  | .sweep watch moment => (watch.sweep s moment).2.2.alerts
  | .tick monitor poll later => (poll.tick monitor s e.clock later).2.2
  | .answered poll since answer => (poll.answered s since answer).2.2
  | .reject poll failure => (poll.reject s e.clock failure).2.2
  | _ => []

/-- The alerts that some events raise, in order. -/
def alerts : Store → List Event → List Alert
  | _, [] => []
  | s, e :: es => s.raised e ++ (s.after e).alerts es

theorem alerts_append (s : Store) (es fs : List Event) :
    s.alerts (es ++ fs) = s.alerts es ++ (s.run es).alerts fs := by
  induction es generalizing s with
  | nil => rfl
  | cons e es ih => simp [alerts, ih]

/-! ## Everything but sweeps -/

/-- The same ranges have lapsed, and the same were warned about. -/
structure SameMarks (s t : Store) : Prop where
  lapsed : ∀ id, t.Lapsed id ↔ s.Lapsed id
  warned : ∀ id, t.Warned id ↔ s.Warned id

namespace SameMarks

variable {s t u : Store}

theorem of_ranges (h : t.ranges = s.ranges) : SameMarks s t := by
  constructor <;> intro id
  · unfold Lapsed
    rw [h]
  · unfold Warned
    rw [h]

theorem refl (s : Store) : SameMarks s s := of_ranges rfl

theorem trans (h : SameMarks s t) (h' : SameMarks t u) : SameMarks s u :=
  ⟨fun id => (h'.lapsed id).trans (h.lapsed id), fun id => (h'.warned id).trans (h.warned id)⟩

theorem settle (s : Store) (id : String) : SameMarks s (s.settle id) := by
  rw [settle_eq]
  refine ⟨fun other => ?_, fun other => warned_setStatus⟩
  constructor
  · rintro ⟨r', hr', hid, hexp⟩
    obtain ⟨r, hr, rfl⟩ := mem_setStatus.1 hr'
    split at hexp
    · cases hexp
    · next hp =>
      rw [if_neg hp] at hid
      exact ⟨r, hr, hid, hexp⟩
  · rintro ⟨r, hr, hid, hexp⟩
    refine ⟨r, mem_setStatus.2 ⟨r, hr, ?_⟩, hid, hexp⟩
    rw [if_neg]
    simp [hexp]

/-- What is registered has no mark. -/
theorem registers {id : String} {new : NewRange} {now : Instant} (h : s.Registers id new now t) :
    SameMarks s t := by
  constructor <;> intro other
  · unfold Lapsed
    rw [h.ranges]
    simp [NewRange.toRow]
  · unfold Warned
    rw [h.ranges]
    simp [NewRange.toRow]

theorem take (s : Store) (series : Series) (number : Nat) (state : FolioState) (id : String) :
    SameMarks s ((s.setFolio series number state).settle id) :=
  (of_ranges rfl : SameMarks s (s.setFolio series number state)).trans (settle _ id)

theorem bind {series : Series} {number : Nat} {document : String} {d : Folio}
    (h : s.bind series number document = .ok (d, t)) : SameMarks s t := by
  rcases bind_eq_ok_cases h with rfl | ⟨state, rfl⟩
  · exact refl t
  · exact of_ranges rfl

end SameMarks

end Store

/-- No alert of the list is about a range. -/
def NoneOfRanges (alerts : List Alert) : Prop :=
  ∀ a ∈ alerts, a.lostRange? = none ∧ a.warnedRange? = none

theorem noneOfRanges_nil : NoneOfRanges [] := by simp [NoneOfRanges]

theorem Desk.exhaustion_noneOfRanges (d : Desk) (series : Series) (remaining : Nat) :
    NoneOfRanges (d.exhaustion series remaining) := by
  unfold NoneOfRanges exhaustion
  split <;> simp [Alert.lostRange?, Alert.warnedRange?]

theorem Desk.assign_sameMarks (d : Desk) (s : Store) (now : Instant) (series : Series)
    (document : Option String) : SameMarks s (d.assign s now series document).2.1 ∧
      NoneOfRanges (d.assign s now series document).2.2.alerts := by
  unfold Desk.assign
  split
  · next h =>
    obtain ⟨row, -, rfl⟩ := assign_eq_ok h
    exact ⟨.take .., d.exhaustion_noneOfRanges _ _⟩
  · exact ⟨.refl s, noneOfRanges_nil⟩

theorem Desk.void_sameMarks (d : Desk) (s : Store) (now : Instant) (series : Series) (number : Nat)
    (reason : String) : SameMarks s (d.void s now series number reason).2.1 ∧
      NoneOfRanges (d.void s now series number reason).2.2.alerts := by
  unfold Desk.void
  split
  · next h =>
    obtain ⟨row, -, -, -, -, rfl⟩ := void_eq_ok h
    exact ⟨.take .., d.exhaustion_noneOfRanges _ _⟩
  · exact ⟨.refl s, noneOfRanges_nil⟩

theorem Poll.tick_noneOfRanges (p : Poll) (m : Monitor) (s : Store) (now later : Instant) :
    NoneOfRanges (p.tick m s now later).2.2 := by
  unfold Poll.tick
  split
  · exact noneOfRanges_nil
  · simp only
    split
    · split
      · exact noneOfRanges_nil
      · simp [NoneOfRanges, Alert.lostRange?, Alert.warnedRange?]
    · exact noneOfRanges_nil

theorem Poll.answered_noneOfRanges (p : Poll) (s : Store) (since : Instant)
    (answer : Except Failure AuthorityStatus) : NoneOfRanges (p.answered s since answer).2.2 := by
  unfold Poll.answered
  split
  · split <;> exact noneOfRanges_nil
  · exact noneOfRanges_nil
  · split
    · exact noneOfRanges_nil
    · simp [NoneOfRanges, Alert.lostRange?, Alert.warnedRange?]
  · exact noneOfRanges_nil

theorem Poll.reject_noneOfRanges (p : Poll) (s : Store) (now : Instant) (failure : Failure) :
    NoneOfRanges (p.reject s now failure).2.2 := by
  unfold Poll.reject
  split
  · exact noneOfRanges_nil
  · simp [NoneOfRanges, Alert.lostRange?, Alert.warnedRange?]

/-- An event is a sweep, or leaves the marks of all ranges and raises no alert about one. -/
theorem Event.sweep_or_sameMarks (s : Store) (e : Event) (h : e.call.bypassesWatch = false) :
    (∃ watch moment, e.call = .sweep watch moment) ∨
      (SameMarks s (s.after e) ∧ NoneOfRanges (s.raised e)) := by
  obtain ⟨clock, call⟩ := e
  cases call with
  | sweep watch moment => exact .inl ⟨watch, moment, rfl⟩
  | expire moment => cases h
  | markNearExpiry id moment => cases h
  | assign desk series document => exact .inr (desk.assign_sameMarks s clock series document)
  | void desk series number reason => exact .inr (desk.void_sameMarks s clock series number reason)
  | register =>
    exact .inr ⟨keep_snd_of (.refl s) fun _ _ h => .registers (register_registers h), noneOfRanges_nil⟩
  | bind => exact .inr ⟨keep_snd_of (.refl s) fun _ _ h => .bind h, noneOfRanges_nil⟩
  | ingest monitor faulty id poll new =>
    refine .inr ⟨?_, noneOfRanges_nil⟩
    rcases poll.register_registers s monitor faulty id clock new with h | h
    · exact .of_ranges (congrArg Store.ranges h)
    · exact .registers h
  | tick monitor poll later =>
    exact .inr ⟨.of_ranges (Event.sameLedger rfl).ranges,
      poll.tick_noneOfRanges monitor s clock later⟩
  | answered poll since answer =>
    exact .inr ⟨.of_ranges (Event.sameLedger rfl).ranges, poll.answered_noneOfRanges s since answer⟩
  | reject poll failure =>
    exact .inr ⟨.of_ranges (Event.sameLedger rfl).ranges, poll.reject_noneOfRanges s clock failure⟩
  | _ => exact .inr ⟨.of_ranges (Event.sameLedger rfl).ranges, noneOfRanges_nil⟩

/-! ## Sweeps -/

namespace Watch.Sweeps

variable {w : Watch} {s t : Store} {now : Instant} {expired near : List Range}

theorem lapsed_iff (h : w.Sweeps s now expired near t) {id : String} :
    (w.sweep s now).2.1.Lapsed id ↔
      s.Lapsed id ∨ ∃ r ∈ s.ranges, r.id = id ∧ isDue r now.toMillis = true := by
  rw [h.store, (w.warnAll_sameUnmarked now t near).lapsed_iff, h.after_expire, lapsed_setStatus]

theorem lostRanges (h : w.Sweeps s now expired near t) :
    (w.sweep s now).2.2.alerts.filterMap Alert.lostRange? = expired.map (·.id) := by
  have hwarned : ((w.warnAll now t near).1.map (·.2)).filterMap Alert.lostRange? = [] := by
    rw [List.filterMap_eq_nil_iff]
    intro a ha
    obtain ⟨p, hp, rfl⟩ := List.mem_map.1 ha
    obtain ⟨r, -, rfl, -⟩ := of_mem_warnAll hp
    rfl
  rw [h.alerts, List.filterMap_append, hwarned, List.append_nil, List.filterMap_map]
  exact congrFun (List.filterMap_eq_map (f := fun r : Range => r.id)) _

theorem expired_ids (h : w.Sweeps s now expired near t) :
    expired.map (·.id) = (s.ranges.filter (isDue · now.toMillis)).map (·.id) := by
  have hlosses := congrArg (List.filterMap Alert.lostRange?) h.losses
  rw [List.filterMap_map, List.filterMap_map] at hlosses
  exact ((congrFun (List.filterMap_eq_map (f := fun r : Range => r.id)) _).symm.trans hlosses).trans
    (congrFun (List.filterMap_eq_map (f := fun r : RangeRow => r.id)) _)

theorem warnedRanges (h : w.Sweeps s now expired near t) :
    (w.sweep s now).2.2.alerts.filterMap Alert.warnedRange? =
      (w.warnAll now t near).1.map (·.1) := by
  have hlost : (expired.map (lossOf t)).filterMap Alert.warnedRange? = [] := by
    rw [List.filterMap_eq_nil_iff]
    intro a ha
    obtain ⟨r, -, rfl⟩ := List.mem_map.1 ha
    rfl
  have hwarned : ∀ p ∈ (w.warnAll now t near).1, p.2.warnedRange? = some p.1 := by
    intro p hp
    obtain ⟨r, -, rfl, -⟩ := of_mem_warnAll hp
    rfl
  rw [h.alerts, List.filterMap_append, hlost, List.nil_append, List.filterMap_map,
    ← List.filterMap_eq_map]
  exact List.filterMap_congr hwarned

/-- A range that a sweep moves is told about once, and no other. -/
theorem count_lost (h : w.Sweeps s now expired near t) (hs : Aligned s) (id : String) :
    ((w.sweep s now).2.2.alerts.filterMap Alert.lostRange?).count id +
        (if s.Lapsed id then 1 else 0) =
      if (w.sweep s now).2.1.Lapsed id then 1 else 0 := by
  have hnodup : ((s.ranges.filter (isDue · now.toMillis)).map (·.id)).Nodup :=
    hs.ids.sublist (List.filter_sublist.map _)
  have hmem : id ∈ (s.ranges.filter (isDue · now.toMillis)).map (·.id) ↔
      ∃ r ∈ s.ranges, r.id = id ∧ isDue r now.toMillis = true := by
    simp only [List.mem_map, List.mem_filter, and_assoc]
    exact exists_congr fun r => and_congr_right fun _ => and_comm
  rw [h.lostRanges, h.expired_ids, hnodup.count]
  by_cases hdue : ∃ r ∈ s.ranges, r.id = id ∧ isDue r now.toMillis = true
  · have hfresh : ¬ s.Lapsed id := by
      obtain ⟨r, hr, rfl, hdue⟩ := hdue
      exact hs.not_lapsed_of_active hr (isDue_iff.1 hdue).1
    rw [if_pos (hmem.2 hdue), if_neg hfresh, if_pos (h.lapsed_iff.2 (.inr hdue))]
  · have hsame : (w.sweep s now).2.1.Lapsed id ↔ s.Lapsed id := by
      rw [h.lapsed_iff, or_iff_left hdue]
    rw [if_neg (mt hmem.1 hdue), Nat.zero_add]
    simp only [hsame]

theorem count_warned (h : w.Sweeps s now expired near t) (hs : Aligned s) (id : String) :
    ((w.sweep s now).2.2.alerts.filterMap Alert.warnedRange?).count id +
        (if s.Warned id then 1 else 0) =
      if (w.sweep s now).2.1.Warned id then 1 else 0 := by
  have hsame : s.Warned id ↔ t.Warned id := by rw [h.after_expire, warned_setStatus]
  rw [h.warnedRanges, h.store, ← count_warnAll (h.aligned hs)]
  simp only [hsame]

/-- What a sweep warns about is active, and the alert counts the folios that it has left. -/
theorem of_warning (h : w.Sweeps s now expired near t) (hs : Aligned s) {series : Series}
    {id : String} {days : Int} {remaining : Nat}
    (hmem : .rangeNearExpiry series id days remaining ∈ (w.sweep s now).2.2.alerts) :
    (∃ r ∈ (w.sweep s now).2.1.ranges, r.id = id ∧ r.series = series ∧ r.status = .active) ∧
      remaining = (w.sweep s now).2.1.countOf id .available := by
  have hsame := w.warnAll_sameUnmarked now t near
  rw [h.alerts, List.mem_append, List.mem_map, List.mem_map] at hmem
  rw [h.store]
  rcases hmem with ⟨r, -, hloss⟩ | ⟨p, hp, hwarning⟩
  · cases hloss
  · obtain ⟨r, hr, rfl, row, hrow, hun⟩ := of_mem_warnAll hp
    cases hwarning
    obtain ⟨hid, hact, -⟩ := isUnwarned_iff.1 hun
    obtain ⟨row', hrow', hread⟩ := h.read r hr
    obtain ⟨hid', hseries, -⟩ := RangeRecord.toRange_eq_ok hread
    obtain rfl := (h.aligned hs).eq_of_id hrow hrow' (hid.trans hid')
    obtain ⟨row', hrow', hid'', hseries', hact', -⟩ := hsame.exists_range hrow
    exact ⟨⟨row', hrow', hid''.trans hid, hseries'.trans hseries.symm, hact'.trans hact⟩,
      (hsame.countOf _ _).symm⟩

/-- The losses are those of the ranges that the sweep moves. -/
theorem loss_iff (h : w.Sweeps s now expired near t) {series : Series} {id : String}
    {remaining : Nat} :
    .rangeExpired series id remaining ∈ (w.sweep s now).2.2.alerts ↔
      (∃ r ∈ s.ranges, r.id = id ∧ r.series = series ∧ isDue r now.toMillis = true) ∧
        remaining = (w.sweep s now).2.1.countOf id .available := by
  have hcount : (w.sweep s now).2.1.countOf id .available = s.countOf id .available := by
    rw [h.store, (w.warnAll_sameUnmarked now t near).countOf, h.after_expire]
    rfl
  rw [h.alerts, h.losses, hcount, List.mem_append, List.mem_map, List.mem_map]
  constructor
  · rintro (⟨r, hr, hloss⟩ | ⟨p, hp, hwarning⟩)
    · obtain ⟨hr, hdue⟩ := List.mem_filter.1 hr
      cases hloss
      exact ⟨⟨r, hr, rfl, rfl, hdue⟩, rfl⟩
    · obtain ⟨r, -, rfl, -⟩ := of_mem_warnAll hp
      cases hwarning
  · rintro ⟨⟨r, hr, rfl, rfl, hdue⟩, rfl⟩
    exact .inl ⟨r, List.mem_filter.2 ⟨hr, hdue⟩, rfl⟩

/-- No range is both lost and warned about. -/
theorem not_lapsed_of_warned (h : w.Sweeps s now expired near t) (hs : Aligned s) {b : Alert}
    (hb : b ∈ (w.sweep s now).2.2.alerts) {id : String} (hid : b.warnedRange? = some id) :
    ¬ (w.sweep s now).2.1.Lapsed id := by
  obtain ⟨series, days, remaining, rfl⟩ := Alert.warnedRange?_eq_some.1 hid
  obtain ⟨⟨r, hr, rfl, -, hact⟩, -⟩ := h.of_warning hs hb
  have hu : Aligned (w.sweep s now).2.1 := by
    rw [h.store]
    exact (w.warnAll_sameUnmarked now t near).aligned (h.aligned hs)
  exact hu.not_lapsed_of_active hr hact

end Watch.Sweeps

/-! ## Runs -/

namespace Store

variable {s t : Store} {log : List Alert}

/-- The alerts of `log` count the marks of ranges, and no range is warned about after its loss. -/
structure Told (s : Store) (log : List Alert) : Prop where
  lost : ∀ id, (log.filterMap Alert.lostRange?).count id = if s.Lapsed id then 1 else 0
  warned : ∀ id, (log.filterMap Alert.warnedRange?).count id = if s.Warned id then 1 else 0
  order : log.Pairwise fun a b => ∀ id, a.lostRange? = some id → b.warnedRange? ≠ some id

namespace Told

theorem empty : Told Store.empty [] := ⟨by simp [Lapsed], by simp [Warned], .nil⟩

/-- What is told of an event is added to what was told before. -/
theorem append (h : s.Told log) {more : List Alert}
    (lost : ∀ id, (more.filterMap Alert.lostRange?).count id + (if s.Lapsed id then 1 else 0) =
      if t.Lapsed id then 1 else 0)
    (warned : ∀ id, (more.filterMap Alert.warnedRange?).count id + (if s.Warned id then 1 else 0) =
      if t.Warned id then 1 else 0)
    (order : more.Pairwise fun a b => ∀ id, a.lostRange? = some id → b.warnedRange? ≠ some id)
    (later : ∀ b ∈ more, ∀ id, b.warnedRange? = some id → ¬ s.Lapsed id) :
    t.Told (log ++ more) where
  lost id := by
    rw [List.filterMap_append, List.count_append, h.lost, ← lost, Nat.add_comm]
  warned id := by
    rw [List.filterMap_append, List.count_append, h.warned, ← warned, Nat.add_comm]
  order := by
    refine List.pairwise_append.2 ⟨h.order, order, fun a ha b hb id hlost hwarned => ?_⟩
    have hcount : 0 < (log.filterMap Alert.lostRange?).count id :=
      List.count_pos_iff.2 (List.mem_filterMap.2 ⟨a, ha, hlost⟩)
    rw [h.lost, if_neg (later b hb id hwarned)] at hcount
    exact Nat.lt_irrefl 0 hcount

theorem sweep (h : s.Told log) (hs : Aligned s) (w : Watch) (now : Instant) :
    (w.sweep s now).2.1.Told (log ++ (w.sweep s now).2.2.alerts) := by
  rcases w.sweep_cases s now with ⟨failure, hfails⟩ | ⟨expired, near, t, hsweep⟩
  · rw [hfails]
    exact (List.append_nil log).symm ▸ h
  · refine h.append (hsweep.count_lost hs) (hsweep.count_warned hs) ?_ fun b hb id hwarned hlapsed =>
      hsweep.not_lapsed_of_warned hs hb hwarned (hsweep.lapsed_iff.2 (.inl hlapsed))
    refine List.pairwise_of_forall_mem_list fun a ha b hb id hlost hwarned => ?_
    obtain ⟨series, remaining, rfl⟩ := Alert.lostRange?_eq_some.1 hlost
    obtain ⟨⟨r, hr, hid, -, hdue⟩, -⟩ := hsweep.loss_iff.1 ha
    exact hsweep.not_lapsed_of_warned hs hb hwarned (hsweep.lapsed_iff.2 (.inr ⟨r, hr, hid, hdue⟩))

theorem quiet (h : s.Told log) (hsame : SameMarks s t) {more : List Alert}
    (hnone : NoneOfRanges more) : t.Told (log ++ more) := by
  have hlost : more.filterMap Alert.lostRange? = [] :=
    List.filterMap_eq_nil_iff.2 fun a ha => (hnone a ha).1
  have hwarned : more.filterMap Alert.warnedRange? = [] :=
    List.filterMap_eq_nil_iff.2 fun a ha => (hnone a ha).2
  refine h.append (fun id => ?_) (fun id => ?_) ?_ fun b hb id hwarned => ?_
  · simp only [hlost, List.count_nil, Nat.zero_add, hsame.lapsed]
  · simp only [hwarned, List.count_nil, Nat.zero_add, hsame.warned]
  · refine List.pairwise_of_forall_mem_list fun a ha b hb id hlost => ?_
    rw [(hnone a ha).1] at hlost
    cases hlost
  · rw [(hnone b hb).2] at hwarned
    cases hwarned

/-- Every event that does not bypass the watch keeps the count. -/
theorem after (h : s.Told log) (hs : Aligned s) {e : Event} (he : e.call.bypassesWatch = false) :
    (s.after e).Told (log ++ s.raised e) := by
  rcases e.sweep_or_sameMarks s he with ⟨w, moment, hcall⟩ | ⟨hsame, hnone⟩
  · simp only [Store.after, raised, hcall]
    exact h.sweep hs w moment
  · exact h.quiet hsame hnone

theorem run {es : List Event} (hes : ∀ e ∈ es, e.call.bypassesWatch = false) :
    (Store.empty.run es).Told (Store.empty.alerts es) := by
  induction es using List.reverseRecOn with
  | nil => exact empty
  | append_singleton es e ih =>
    rw [run_append, alerts_append]
    have htold := ih fun e' he' => hes e' (List.mem_append_left _ he')
    simpa [alerts] using htold.after (run_coherent es).toAligned (hes e (by simp))

end Told

/-- What an event tells of ranges: all that it moves, and active ones that it warns about; and a sweep
reports whom it has told of. -/
structure TellsOf (s : Store) (e : Event) : Prop where
  swept : ∀ a ∈ s.raised e, a.lostRange? ≠ none ∨ a.warnedRange? ≠ none →
    ∃ watch moment, e.call = .sweep watch moment
  lost_iff : ∀ series id remaining, .rangeExpired series id remaining ∈ s.raised e ↔
    (∃ r ∈ s.ranges, r.id = id ∧ r.series = series ∧ r.status = .active) ∧
      (s.after e).Lapsed id ∧ remaining = (s.after e).countOf id .available
  warned : ∀ series id days remaining, .rangeNearExpiry series id days remaining ∈ s.raised e →
    (∃ r ∈ (s.after e).ranges, r.id = id ∧ r.series = series ∧ r.status = .active) ∧
      remaining = (s.after e).countOf id .available
  reported : ∀ watch moment report, e.call = .sweep watch moment →
    (watch.sweep s moment).1 = .ok report →
      report.expired = (s.raised e).filterMap Alert.lostRange? ∧
        report.warned = (s.raised e).filterMap Alert.warnedRange?

theorem TellsOf.sweep (hs : Aligned s) (clock : Instant) (w : Watch) (now : Instant) :
    s.TellsOf ⟨clock, .sweep w now⟩ := by
  refine ⟨fun _ _ _ => ⟨w, now, rfl⟩, ?_, ?_, ?_⟩
  all_goals rcases w.sweep_cases s now with ⟨failure, hfails⟩ | ⟨expired, near, t, hsweep⟩
  · intro series id remaining
    simp only [raised, Store.after, hfails]
    refine iff_of_false (List.not_mem_nil) ?_
    rintro ⟨⟨r, hr, rfl, -, hact⟩, hlapsed, -⟩
    exact hs.not_lapsed_of_active hr hact hlapsed
  · intro series id remaining
    simp only [raised, Store.after, hsweep.loss_iff, hsweep.lapsed_iff]
    constructor
    · rintro ⟨⟨r, hr, hid, hseries, hdue⟩, hcount⟩
      exact ⟨⟨r, hr, hid, hseries, (isDue_iff.1 hdue).1⟩, .inr ⟨r, hr, hid, hdue⟩, hcount⟩
    · rintro ⟨⟨r, hr, rfl, hseries, hact⟩, hlapsed, hcount⟩
      obtain ⟨q, hq, hid, hdue⟩ := hlapsed.resolve_left (hs.not_lapsed_of_active hr hact)
      obtain rfl := hs.eq_of_id hq hr hid
      exact ⟨⟨q, hq, rfl, hseries, hdue⟩, hcount⟩
  · intro series id days remaining hmem
    simp only [raised, hfails] at hmem
    cases hmem
  · intro series id days remaining hmem
    exact hsweep.of_warning hs hmem
  · rintro watch moment report ⟨⟩ hreport
    rw [hfails] at hreport
    cases hreport
  · rintro watch moment report ⟨⟩ hreport
    obtain ⟨hexpired, hwarned⟩ := hsweep.report report hreport
    exact ⟨hexpired.trans hsweep.lostRanges.symm, hwarned.trans hsweep.warnedRanges.symm⟩

theorem TellsOf.quiet (hs : Aligned s) {e : Event} (hsame : SameMarks s (s.after e))
    (hnone : NoneOfRanges (s.raised e)) (hcall : ∀ watch moment, e.call ≠ .sweep watch moment) :
    s.TellsOf e where
  swept a ha hranges := by
    obtain ⟨hlost, hwarned⟩ := hnone a ha
    exact absurd hranges (by simp [hlost, hwarned])
  lost_iff series id remaining := by
    refine iff_of_false (fun hmem => nomatch (hnone _ hmem).1) ?_
    rintro ⟨⟨r, hr, rfl, -, hact⟩, hlapsed, -⟩
    exact hs.not_lapsed_of_active hr hact ((hsame.lapsed _).1 hlapsed)
  warned series id days remaining hmem := nomatch (hnone _ hmem).2
  reported watch moment report h := absurd h (hcall watch moment)

theorem TellsOf.of_aligned (hs : Aligned s) {e : Event} (he : e.call.bypassesWatch = false) :
    s.TellsOf e := by
  by_cases hsweep : ∃ watch moment, e.call = .sweep watch moment
  · obtain ⟨clock, call⟩ := e
    obtain ⟨w, moment, rfl⟩ := hsweep
    exact .sweep hs clock w moment
  · obtain ⟨hsame, hnone⟩ := (e.sweep_or_sameMarks s he).resolve_left hsweep
    exact .quiet hs hsame hnone fun w moment hcall => hsweep ⟨w, moment, hcall⟩

/-- In a run in which ranges are expired and marked by sweeps alone, at whatever instants, the alerts
about each range count its marks, none is warned about after its loss, and every event tells of the ranges
that it moves. -/
theorem range_alerts_once {es : List Event} (hes : ∀ e ∈ es, e.call.bypassesWatch = false) :
    (Store.empty.run es).Told (Store.empty.alerts es) ∧
      ∀ es₁ e es₂, es = es₁ ++ e :: es₂ → (Store.empty.run es₁).TellsOf e := by
  refine ⟨.run hes, ?_⟩
  rintro es₁ e es₂ rfl
  exact .of_aligned (run_coherent es₁).toAligned (hes e (by simp))

/-- A range is swept before its expiry, after it, and twice at a time before. -/
def sweptBackAndForth : List Event :=
  [⟨earlyAt 0, .register 10 none "low" ⟨⟨"A", "T"⟩, 1, 3, earlyAt 0, earlyAt 50, none, none⟩⟩,
   ⟨earlyAt 1, .assign ⟨true, none⟩ ⟨"A", "T"⟩ none⟩,
   ⟨earlyAt 2, .sweep ⟨0, none⟩ (earlyAt 20)⟩,
   ⟨earlyAt 2, .sweep ⟨0, none⟩ (earlyAt 10)⟩,
   ⟨earlyAt 3, .sweep ⟨0, none⟩ (earlyAt 55)⟩,
   ⟨earlyAt 3, .sweep ⟨0, none⟩ (earlyAt 30)⟩]

/-- One warning, then one loss. -/
theorem range_alerts_once_sweptBackAndForth :
    (Store.empty.run sweptBackAndForth).Told (Store.empty.alerts sweptBackAndForth) ∧
      Store.empty.alerts sweptBackAndForth =
        [.rangeNearExpiry ⟨"A", "T"⟩ "low" 0 2, .rangeExpired ⟨"A", "T"⟩ "low" 2] :=
  have hwatched : ∀ e ∈ sweptBackAndForth, e.call.bypassesWatch = false := by decide
  ⟨(range_alerts_once hwatched).1, by decide +kernel⟩

end Store

end FolioLedger
