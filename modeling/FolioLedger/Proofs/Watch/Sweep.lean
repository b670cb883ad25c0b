import FolioLedger.Proofs.Ledger.Deeds
import FolioLedger.Proofs.Ledger.PartOperations

/-!
# What a sweep does

A sweep that gets past its first step has expired the ranges that were due, and then warned about
some of the active ones in turn (`Watch.sweep_cases`).  What it does to the ledger is told by two
marks of a range: that it is recorded as expired (`Store.Lapsed`) and that the warning about its expiry
was given (`Store.Warned`).  The first step puts the first mark on the ranges that were due
(`Store.lapsed_setStatus`), each warning the second on one range that is active and has none
(`Store.warned_markNearExpiry`).
-/

namespace FolioLedger

/-! ## Rows read in turn -/

section

variable {α β γ : Type} {g : α → Except Failure β} {rows : List α} {ds : List β}

theorem forall₂_of_mapM (h : rows.mapM g = .ok ds) :
    List.Forall₂ (fun a d => g a = .ok d) rows ds := by
  induction rows generalizing ds with
  | nil =>
    cases h
    exact .nil
  | cons a rows ih =>
    rw [List.mapM_cons] at h
    obtain ⟨d, hd, h⟩ := bind_eq_ok.1 h
    obtain ⟨ds', hds, h⟩ := bind_eq_ok.1 h
    cases h
    exact .cons hd (ih hds)

theorem map_eq_of_mapM (k : β → γ) (k' : α → γ) (hk : ∀ a d, g a = .ok d → k d = k' a)
    (h : rows.mapM g = .ok ds) : ds.map k = rows.map k' := by
  have hread := forall₂_of_mapM h
  clear h
  induction hread with
  | nil => rfl
  | cons hd _ ih => rw [List.map_cons, List.map_cons, hk _ _ hd, ih]

theorem exists_of_mem_mapM {d : β} (h : rows.mapM g = .ok ds) (hd : d ∈ ds) :
    ∃ a ∈ rows, g a = .ok d := by
  have hread := forall₂_of_mapM h
  clear h
  induction hread with
  | nil => cases hd
  | cons hfirst _ ih =>
    rcases List.mem_cons.1 hd with rfl | hd
    · exact ⟨_, List.mem_cons_self, hfirst⟩
    · obtain ⟨a, ha, hread⟩ := ih hd
      exact ⟨a, List.mem_cons_of_mem _ ha, hread⟩

theorem exists_mem_of_mapM {a : α} (h : rows.mapM g = .ok ds) (ha : a ∈ rows) :
    ∃ d ∈ ds, g a = .ok d := by
  have hread := forall₂_of_mapM h
  clear h
  induction hread with
  | nil => cases ha
  | cons hfirst _ ih =>
    rcases List.mem_cons.1 ha with rfl | ha
    · exact ⟨_, List.mem_cons_self, hfirst⟩
    · obtain ⟨d, hd, hread⟩ := ih ha
      exact ⟨d, List.mem_cons_of_mem _ hd, hread⟩

end

namespace Store

/-! ## Marks of ranges -/

/-- The range with the id is recorded as expired. -/
def Lapsed (s : Store) (id : String) : Prop := ∃ r ∈ s.ranges, r.id = id ∧ r.status = .expired

/-- The warning about the expiry of the range with the id was given. -/
def Warned (s : Store) (id : String) : Prop :=
  ∃ r ∈ s.ranges, r.id = id ∧ r.nearExpiryAlertedAt.isSome

/-- The warning about the expiry of the range with the id is still to be given. -/
def Unwarned (s : Store) (id : String) : Prop := ∃ r ∈ s.ranges, isUnwarned r id = true

instance (s : Store) (id : String) : Decidable (s.Lapsed id) :=
  inferInstanceAs (Decidable (∃ r ∈ s.ranges, r.id = id ∧ r.status = .expired))

instance (s : Store) (id : String) : Decidable (s.Warned id) :=
  inferInstanceAs (Decidable (∃ r ∈ s.ranges, r.id = id ∧ r.nearExpiryAlertedAt.isSome))

variable {s t : Store} {id : String} {now : Instant}

theorem isUnwarned_iff {r : RangeRow} :
    isUnwarned r id = true ↔ r.id = id ∧ r.status = .active ∧ r.nearExpiryAlertedAt = none := by
  simp [isUnwarned, and_assoc]

theorem Aligned.not_lapsed_of_active (h : Aligned s) {r : RangeRow} (hr : r ∈ s.ranges)
    (hact : r.status = .active) : ¬ s.Lapsed r.id := by
  rintro ⟨q, hq, hid, hexp⟩
  obtain rfl := h.eq_of_id hq hr hid
  rw [hact] at hexp
  cases hexp

theorem Aligned.not_warned_of_unwarned (h : Aligned s) (hun : s.Unwarned id) : ¬ s.Warned id := by
  rintro ⟨q, hq, hqid, hsome⟩
  obtain ⟨r, hr, hun⟩ := hun
  obtain ⟨hrid, -, hnone⟩ := isUnwarned_iff.1 hun
  obtain rfl := h.eq_of_id hq hr (hqid.trans hrid.symm)
  rw [hnone] at hsome
  cases hsome

/-- Expiring ranges puts the mark on those that meet the condition. -/
theorem lapsed_setStatus {p : RangeRow → Bool} :
    (s.setStatus p .expired).Lapsed id ↔ s.Lapsed id ∨ ∃ r ∈ s.ranges, r.id = id ∧ p r = true := by
  constructor
  · rintro ⟨r', hr', hid, hexp⟩
    obtain ⟨r, hr, rfl⟩ := mem_setStatus.1 hr'
    split at hid
    · next hp => exact .inr ⟨r, hr, hid, hp⟩
    · next hp =>
      rw [if_neg hp] at hexp
      exact .inl ⟨r, hr, hid, hexp⟩
  · rintro (⟨r, hr, hid, hexp⟩ | ⟨r, hr, hid, hp⟩)
    · refine ⟨_, mem_setStatus.2 ⟨r, hr, rfl⟩, ?_⟩
      split <;> exact ⟨hid, by simp [hexp]⟩
    · exact ⟨_, mem_setStatus.2 ⟨r, hr, rfl⟩, by simp [hp, hid]⟩

theorem warned_setStatus {p : RangeRow → Bool} {status : RangeStatus} :
    (s.setStatus p status).Warned id ↔ s.Warned id := by
  constructor
  · rintro ⟨r', hr', hid, hsome⟩
    obtain ⟨r, hr, rfl⟩ := mem_setStatus.1 hr'
    refine ⟨r, hr, ?_⟩
    split at hid <;> simp_all
  · rintro ⟨r, hr, hid, hsome⟩
    refine ⟨_, mem_setStatus.2 ⟨r, hr, rfl⟩, ?_⟩
    split <;> exact ⟨hid, hsome⟩

theorem mem_markNearExpiry {r' : RangeRow} : r' ∈ (s.markNearExpiry id now).2.ranges ↔
    ∃ r ∈ s.ranges, r' = if isUnwarned r id then
      { r with nearExpiryAlertedAt := some now.toMillis } else r := by
  simp only [markNearExpiry, List.mem_map, eq_comm]

theorem markNearExpiry_fst : (s.markNearExpiry id now).1 = true ↔ s.Unwarned id := by
  simp [markNearExpiry, Unwarned]

theorem warned_markNearExpiry {other : String} : (s.markNearExpiry id now).2.Warned other ↔
    s.Warned other ∨ (other = id ∧ s.Unwarned id) := by
  constructor
  · rintro ⟨r', hr', hid, hsome⟩
    obtain ⟨r, hr, rfl⟩ := mem_markNearExpiry.1 hr'
    split at hid
    · next hun => exact .inr ⟨hid.symm.trans (isUnwarned_iff.1 hun).1, r, hr, hun⟩
    · next hun =>
      rw [if_neg hun] at hsome
      exact .inl ⟨r, hr, hid, hsome⟩
  · rintro (⟨r, hr, hid, hsome⟩ | ⟨rfl, r, hr, hun⟩)
    · refine ⟨_, mem_markNearExpiry.2 ⟨r, hr, rfl⟩, ?_⟩
      split <;> exact ⟨hid, by simp [hsome]⟩
    · exact ⟨_, mem_markNearExpiry.2 ⟨r, hr, rfl⟩, by simp [hun, (isUnwarned_iff.1 hun).1]⟩

/-- Only one who had no warning gets one, and then has it. -/
theorem unwarned_of_markNearExpiry {other : String}
    (h : (s.markNearExpiry id now).2.Unwarned other) : s.Unwarned other := by
  obtain ⟨r', hr', hun⟩ := h
  obtain ⟨r, hr, rfl⟩ := mem_markNearExpiry.1 hr'
  split at hun
  · cases (isUnwarned_iff.1 hun).2.2
  · exact ⟨r, hr, hun⟩

end Store

/-- A range without the mark of its warning. -/
def RangeRecord.unmarked (r : RangeRow) : RangeRow := { r with nearExpiryAlertedAt := none }

namespace Store

/-- At most the marks of warnings differ. -/
structure SameUnmarked (s t : Store) : Prop where
  ranges : t.ranges.map RangeRecord.unmarked = s.ranges.map RangeRecord.unmarked
  folios : t.folios = s.folios

namespace SameUnmarked

variable {s t u : Store}

theorem refl (s : Store) : SameUnmarked s s := ⟨rfl, rfl⟩

theorem trans (h : SameUnmarked s t) (h' : SameUnmarked t u) : SameUnmarked s u :=
  ⟨h'.ranges.trans h.ranges, h'.folios.trans h.folios⟩

theorem symm (h : SameUnmarked s t) : SameUnmarked t s := ⟨h.ranges.symm, h.folios.symm⟩

theorem markNearExpiry (s : Store) (id : String) (now : Instant) :
    SameUnmarked s (s.markNearExpiry id now).2 := by
  refine ⟨?_, rfl⟩
  simp only [Store.markNearExpiry, List.map_map]
  refine List.map_congr_left fun r _ => ?_
  simp only [Function.comp_apply]
  split <;> rfl

theorem exists_range (h : SameUnmarked s t) {r : RangeRow} (hr : r ∈ s.ranges) :
    ∃ r' ∈ t.ranges, r'.id = r.id ∧ r'.series = r.series ∧ r'.status = r.status ∧
      r'.expiresAt = r.expiresAt := by
  have hmem : r.unmarked ∈ t.ranges.map RangeRecord.unmarked :=
    h.ranges ▸ List.mem_map_of_mem hr
  obtain ⟨r', hr', hsame⟩ := List.mem_map.1 hmem
  simp only [RangeRecord.unmarked, RangeRecord.mk.injEq] at hsame
  obtain ⟨hid, hseries, -, -, -, hexpires, hstatus, -⟩ := hsame
  exact ⟨r', hr', hid, hseries, hstatus, hexpires⟩

theorem lapsed_of (h : SameUnmarked s t) {id : String} (hs : s.Lapsed id) : t.Lapsed id := by
  obtain ⟨r, hr, hid, hexp⟩ := hs
  obtain ⟨r', hr', hid', -, hexp', -⟩ := h.exists_range hr
  exact ⟨r', hr', hid'.trans hid, hexp'.trans hexp⟩

theorem lapsed_iff (h : SameUnmarked s t) {id : String} : t.Lapsed id ↔ s.Lapsed id :=
  ⟨h.symm.lapsed_of, h.lapsed_of⟩

theorem aligned (h : SameUnmarked s t) (hs : Aligned s) : Aligned t := by
  refine hs.of_frames ?_ (by rw [h.folios])
  have hframes := congrArg (List.map RangeRecord.frame) h.ranges
  rw [List.map_map, List.map_map] at hframes
  exact hframes

theorem countOf (h : SameUnmarked s t) (id : String) (status : FolioStatus) :
    t.countOf id status = s.countOf id status := by
  unfold Store.countOf
  rw [h.folios]

end SameUnmarked

end Store

namespace Watch

open Store

variable {w : Watch} {s t : Store} {now : Instant}

/-! ## Warnings in turn -/

/-- The warning about a range. -/
def warningOf (w : Watch) (now : Instant) (s : Store) (r : Range) : Alert :=
  .rangeNearExpiry r.series r.id (classifyValidity r.expiresAt now w.nearDays).2
    (s.countOf r.id .available)

theorem warnAll_cons (w : Watch) (now : Instant) (s : Store) (r : Range) (rs : List Range) :
    w.warnAll now s (r :: rs) =
      ((if (s.markNearExpiry r.id now).1 then [(r.id, w.warningOf now s r)] else []) ++
        (w.warnAll now (s.markNearExpiry r.id now).2 rs).1,
      (w.warnAll now (s.markNearExpiry r.id now).2 rs).2) := by
  have hwarn : w.warn now s r = (if (s.markNearExpiry r.id now).1 then some (w.warningOf now s r)
    else none, (s.markNearExpiry r.id now).2) := rfl
  rw [warnAll, hwarn]
  cases (s.markNearExpiry r.id now).1 <;> rfl

theorem warnAll_sameUnmarked (w : Watch) (now : Instant) (s : Store) (rs : List Range) :
    SameUnmarked s (w.warnAll now s rs).2 := by
  induction rs generalizing s with
  | nil => exact .refl s
  | cons r rs ih =>
    rw [warnAll_cons]
    exact (SameUnmarked.markNearExpiry s r.id now).trans (ih _)

/-- Only ranges of the list are warned about, and only such as had no warning. -/
theorem of_mem_warnAll {rs : List Range} {p : String × Alert} (h : p ∈ (w.warnAll now s rs).1) :
    ∃ r ∈ rs, p = (r.id, w.warningOf now s r) ∧ s.Unwarned r.id := by
  induction rs generalizing s with
  | nil => cases h
  | cons r rs ih =>
    rw [warnAll_cons, List.mem_append] at h
    rcases h with h | h
    · split at h
      · next hfirst =>
        exact ⟨r, List.mem_cons_self, List.mem_singleton.1 h, markNearExpiry_fst.1 hfirst⟩
      · cases h
    · obtain ⟨q, hq, hp, hun⟩ := ih h
      exact ⟨q, List.mem_cons_of_mem _ hq, hp, unwarned_of_markNearExpiry hun⟩

/-- A range is warned about once if its mark is new, else not at all. -/
theorem count_warnAll (h : Aligned s) (rs : List Range) (id : String) :
    ((w.warnAll now s rs).1.map (·.1)).count id + (if s.Warned id then 1 else 0) =
      if (w.warnAll now s rs).2.Warned id then 1 else 0 := by
  induction rs generalizing s with
  | nil => exact Nat.zero_add _
  | cons r rs ih =>
    rw [warnAll_cons, List.map_append, List.count_append]
    simp only
    rw [← ih (h.markNearExpiry r.id now)]
    have hstep : ((if (s.markNearExpiry r.id now).1 then [(r.id, w.warningOf now s r)] else []).map
        (·.1)).count id + (if s.Warned id then 1 else 0) =
          if (s.markNearExpiry r.id now).2.Warned id then 1 else 0 := by
      by_cases hun : s.Unwarned r.id
      · rw [if_pos (markNearExpiry_fst.2 hun)]
        by_cases hid : id = r.id
        · subst hid
          rw [if_neg (h.not_warned_of_unwarned hun),
            if_pos (warned_markNearExpiry.2 (.inr ⟨rfl, hun⟩))]
          simp
        · have hsame : (s.markNearExpiry r.id now).2.Warned id ↔ s.Warned id := by
            simp [warned_markNearExpiry, hid]
          simp [hsame, Ne.symm hid]
      · have hsame : (s.markNearExpiry r.id now).2.Warned id ↔ s.Warned id := by
          simp [warned_markNearExpiry, hun]
        rw [if_neg (mt markNearExpiry_fst.1 hun)]
        simp [hsame]
    omega

/-! ## The parts of a sweep -/

/-- A sweep that gets past its first step: `t` is the store after it, `expired` are the ranges that
have expired, and `near` the active ones that are to be warned about. -/
structure Sweeps (w : Watch) (s : Store) (now : Instant) (expired near : List Range) (t : Store) :
    Prop where
  expire : s.expire now = .ok (expired, t)
  read : ∀ r ∈ near, ∃ row ∈ t.ranges, row.toRange = .ok r
  store : (w.sweep s now).2.1 = (w.warnAll now t near).2
  alerts : (w.sweep s now).2.2.alerts =
    expired.map (lossOf t) ++ (w.warnAll now t near).1.map (·.2)
  report : ∀ report, (w.sweep s now).1 = .ok report →
    report.expired = expired.map (·.id) ∧ report.warned = (w.warnAll now t near).1.map (·.1)

theorem after_of_expire {expired : List Range} (h : s.expire now = .ok (expired, t)) :
    t = s.setStatus (isDue · now.toMillis) .expired := by
  rw [expire_eq] at h
  obtain ⟨_, -, h⟩ := bind_eq_ok.1 h
  cases h
  rfl

/-- What a sweep does that reads the active ranges. -/
theorem sweep_of_listed {expired active : List Range} {warned : List (String × Alert)} {u : Store}
    (hexpire : s.expire now = .ok (expired, t))
    (hactive : t.listRanges { status := some .active } = .ok active)
    (hwarn : w.warnAll now t (w.nearExpiry now active) = (warned, u)) :
    w.sweep s now =
      ((w.triggers now u (w.nearExpiry now active)).map fun triggers =>
        ⟨active.length, expired.map (·.id), warned.map (·.1), triggers.map (·.series)⟩, u,
        ⟨expired.map (lossOf t) ++ warned.map (·.2),
          (w.triggers now u (w.nearExpiry now active)).toOption.getD []⟩) := by
  simp only [sweep, hexpire, hactive, hwarn]
  cases w.triggers now u (w.nearExpiry now active) <;> rfl

/-- The active ranges are read row by row. -/
theorem listed_active {active : List Range}
    (h : t.listRanges { status := some .active } = .ok active) :
    (∀ d ∈ active, ∃ r ∈ t.ranges, r.status = .active ∧ r.toRange = .ok d) ∧
      ∀ r ∈ t.ranges, r.status = .active → ∃ d ∈ active, r.toRange = .ok d := by
  have hrows : ∀ r, r ∈ (t.ranges.filter
      (RangeFilter.admits { status := some .active })).mergeSort listedBefore ↔
        r ∈ t.ranges ∧ r.status = .active := by
    intro r
    rw [List.mem_mergeSort, List.mem_filter]
    simp [RangeFilter.admits, eq_comm]
  constructor
  · intro d hd
    obtain ⟨r, hr, hread⟩ := exists_of_mem_mapM h hd
    exact ⟨r, ((hrows r).1 hr).1, ((hrows r).1 hr).2, hread⟩
  · intro r hr hact
    exact exists_mem_of_mapM h ((hrows r).2 ⟨hr, hact⟩)

/-- A sweep does nothing at all, or gets past its first step. -/
theorem sweep_cases (w : Watch) (s : Store) (now : Instant) :
    (∃ failure, w.sweep s now = (.error (.failed failure), s, Outbox.empty)) ∨
      ∃ expired near t, w.Sweeps s now expired near t := by
  cases hexpire : s.expire now with
  | error failure =>
    refine .inl ⟨failure, ?_⟩
    simp only [sweep, hexpire]
  | ok res =>
    obtain ⟨expired, t⟩ := res
    cases hactive : t.listRanges { status := some .active } with
    | error failure =>
      have hsweep : w.sweep s now = (.error (.failed failure), t, ⟨expired.map (lossOf t), []⟩) := by
        simp only [sweep, hexpire, hactive]
      refine .inr ⟨expired, [], t, hexpire, by simp, ?_, ?_, ?_⟩
      · rw [hsweep]
        rfl
      · rw [hsweep]
        simp [warnAll]
      · rw [hsweep]
        nofun
    | ok active =>
      have hsweep := sweep_of_listed (w := w) hexpire hactive rfl
      have hread : ∀ r ∈ w.nearExpiry now active, ∃ row ∈ t.ranges, row.toRange = .ok r := by
        intro r hr
        obtain ⟨row, hrow, -, hread⟩ := (listed_active hactive).1 r (List.mem_filter.1 hr).1
        exact ⟨row, hrow, hread⟩
      refine .inr ⟨expired, w.nearExpiry now active, t, hexpire, hread, ?_, ?_, ?_⟩
      · rw [hsweep]
      · rw [hsweep]
      · intro report hreport
        rw [hsweep] at hreport
        obtain ⟨triggers, -, rfl⟩ := map_eq_ok.1 hreport
        exact ⟨rfl, rfl⟩

namespace Sweeps

variable {expired near : List Range}

theorem after_expire (h : w.Sweeps s now expired near t) :
    t = s.setStatus (isDue · now.toMillis) .expired := after_of_expire h.expire

theorem aligned (h : w.Sweeps s now expired near t) (hs : Aligned s) : Aligned t := by
  rw [h.after_expire]
  exact hs.setStatus _ _

/-- The alerts of the first step are about the ranges that were due. -/
theorem losses (h : w.Sweeps s now expired near t) : expired.map (lossOf t) =
    (s.ranges.filter (isDue · now.toMillis)).map fun r =>
      .rangeExpired r.series r.id (s.countOf r.id .available) := by
  have hexpire := h.expire
  rw [expire_eq] at hexpire
  obtain ⟨ds, hread, hexpire⟩ := bind_eq_ok.1 hexpire
  cases hexpire
  have hloss : ∀ row d, RangeRecord.toRange row = .ok d →
      lossOf s d = .rangeExpired row.series row.id (s.countOf row.id .available) := by
    intro row d hd
    obtain ⟨hid, hseries, -⟩ := RangeRecord.toRange_eq_ok hd
    rw [lossOf, hid, hseries]
  have hread := map_eq_of_mapM (lossOf s) _ hloss hread
  unfold expiring at hread
  rw [List.map_map] at hread
  exact hread

end Sweeps

/-! ## Triggers -/

theorem triggers_eq_ok {near : List Range} {ts : List Trigger} (h : w.triggers now s near = .ok ts) :
    (w.lowWater = none ∧ ts = []) ∨
      ∃ lowWater cutoff, w.lowWater = some lowWater ∧ now.addDays? w.nearDays = some cutoff ∧
        ts = (seriesOf near).filterMap (proactive s now cutoff lowWater) := by
  unfold triggers at h
  split at h
  · next hlow =>
    cases h
    exact .inl ⟨hlow, rfl⟩
  · next lowWater hlow =>
    split at h
    · cases h
    · next cutoff hcutoff =>
      cases h
      exact .inr ⟨lowWater, cutoff, hlow, hcutoff, rfl⟩

/-- A sweep that reaches its end: `t` is the store after its first step, and `active` are the ranges
that it has looked at. -/
structure Completes (w : Watch) (s : Store) (now : Instant) (report : SweepReport) (t : Store)
    (active : List Range) : Prop where
  result : (w.sweep s now).1 = .ok report
  after_expire : t = s.setStatus (isDue · now.toMillis) .expired
  listed : t.listRanges { status := some .active } = .ok active
  store : SameUnmarked t (w.sweep s now).2.1
  triggers : w.triggers now (w.sweep s now).2.1 (w.nearExpiry now active) =
    .ok (w.sweep s now).2.2.triggers
  report : report.triggered = (w.sweep s now).2.2.triggers.map (·.series)

/-- A sweep reaches its end, or ends early and asks for nothing. -/
theorem completes_or_halts (w : Watch) (s : Store) (now : Instant) :
    (∃ report t active, w.Completes s now report t active) ∨
      ∃ halt, (w.sweep s now).1 = .error halt ∧ (w.sweep s now).2.2.triggers = [] := by
  cases hexpire : s.expire now with
  | error failure =>
    have hsweep : w.sweep s now = (.error (.failed failure), s, Outbox.empty) := by
      simp only [sweep, hexpire]
    exact .inr ⟨.failed failure, by rw [hsweep], by rw [hsweep]; rfl⟩
  | ok res =>
    obtain ⟨expired, t⟩ := res
    cases hactive : t.listRanges { status := some .active } with
    | error failure =>
      have hsweep : w.sweep s now = (.error (.failed failure), t, ⟨expired.map (lossOf t), []⟩) := by
        simp only [sweep, hexpire, hactive]
      exact .inr ⟨.failed failure, by rw [hsweep], by rw [hsweep]⟩
    | ok active =>
      obtain ⟨warned, u, hwarn⟩ : ∃ warned u, w.warnAll now t (w.nearExpiry now active) = (warned, u) :=
        ⟨_, _, rfl⟩
      have hsweep := sweep_of_listed hexpire hactive hwarn
      have hsame := w.warnAll_sameUnmarked now t (w.nearExpiry now active)
      rw [hwarn] at hsame
      cases htriggers : w.triggers now u (w.nearExpiry now active) with
      | error halt =>
        rw [htriggers] at hsweep
        exact .inr ⟨halt, by rw [hsweep]; rfl, by rw [hsweep]; rfl⟩
      | ok triggers =>
        rw [htriggers] at hsweep
        refine .inl ⟨_, t, active, by rw [hsweep]; rfl, after_of_expire hexpire, hactive, ?_, ?_, ?_⟩
        · rw [hsweep]
          exact hsame
        · rw [hsweep]
          exact htriggers
        · rw [hsweep]
          rfl

theorem exists_completes {report : SweepReport} (h : (w.sweep s now).1 = .ok report) :
    ∃ t active, w.Completes s now report t active := by
  rcases w.completes_or_halts s now with ⟨report', t, active, hsweep⟩ | ⟨halt, herror, -⟩
  · obtain rfl : report' = report := Except.ok.inj (hsweep.result.symm.trans h)
    exact ⟨t, active, hsweep⟩
  · rw [herror] at h
    cases h

end Watch

end FolioLedger
