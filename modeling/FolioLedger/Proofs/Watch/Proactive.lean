import FolioLedger.Proofs.Ledger.Numbering
import FolioLedger.Proofs.Replenish.Held
import FolioLedger.Proofs.Time.Validity
import FolioLedger.Proofs.Watch.Sweep

/-!
# What a sweep asks for

A series is due if one of its active ranges is near expiry and the stock in its other active ranges is
low (`Watch.Due`).  A sweep tells the two kinds of range apart by whole days, but counts the stock that
expires after an instant, the end of the warning window.  What is not near expiry outlasts the window
(`Watch.lt_expiresAt_of_not_isNear`); not so the converse: a range that expires less than a day after
the window is near expiry and is counted all the same (`Watch.Completes.countAvailable_eq`).

So a sweep asks for series that are due, for each once and in their order, but misses those whose stock
is made up by such ranges, and all of them if it does not reach its end (`Watch.mem_asked_iff`).
`Watch.asksRightly_iff` says when it misses none, and `Watch.due_and_not_asked` is a sweep that warns
about the only range of a series and asks for nothing.
-/

namespace FolioLedger

open Store

/-! ## The order of series -/

namespace Series

theorem precedes_iff {a b : Series} : a.precedes b = true ↔
    a.issuer < b.issuer ∨ (a.issuer = b.issuer ∧ a.docType ≤ b.docType) := by
  simp [precedes]

theorem precedes_trans (a b c : Series) (hab : a.precedes b = true) (hbc : b.precedes c = true) :
    a.precedes c = true := by
  rw [precedes_iff] at *
  rcases hab with hab | ⟨hab, hab'⟩
  · rcases hbc with hbc | ⟨hbc, -⟩
    · exact .inl (String.lt_trans hab hbc)
    · exact .inl (hbc ▸ hab)
  · rcases hbc with hbc | ⟨hbc, hbc'⟩
    · exact .inl (hab ▸ hbc)
    · exact .inr ⟨hab.trans hbc, String.le_trans hab' hbc'⟩

theorem precedes_total (a b : Series) : (a.precedes b || b.precedes a) = true := by
  rw [Bool.or_eq_true, precedes_iff, precedes_iff]
  by_cases hlt : a.issuer < b.issuer
  · exact .inl (.inl hlt)
  by_cases hgt : b.issuer < a.issuer
  · exact .inr (.inl hgt)
  have hissuer : a.issuer = b.issuer := String.le_antisymm hgt hlt
  rcases String.le_total a.docType b.docType with hle | hge
  · exact .inl (.inr ⟨hissuer, hle⟩)
  · exact .inr (.inr ⟨hissuer.symm, hge⟩)

end Series

theorem nodup_eraseDups {α : Type} [DecidableEq α] (xs : List α) : xs.eraseDups.Nodup := by
  match xs with
  | [] => exact .nil
  | x :: rest =>
    rw [List.eraseDups_cons, List.nodup_cons]
    refine ⟨fun hmem => ?_, nodup_eraseDups _⟩
    have hkept := (List.mem_filter.1 (List.mem_eraseDups.1 hmem)).2
    simp at hkept
termination_by xs.length
decreasing_by exact Nat.lt_succ_of_le (List.length_filter_le ..)

namespace Watch

variable {w : Watch} {s t : Store} {now cutoff : Instant} {series : Series}

theorem mem_seriesOf {ranges : List Range} :
    series ∈ seriesOf ranges ↔ ∃ r ∈ ranges, r.series = series := by
  rw [seriesOf, List.mem_mergeSort, List.mem_eraseDups, List.mem_map]

/-- The series are listed in their order, each once. -/
theorem seriesOf_ordered (ranges : List Range) :
    (seriesOf ranges).Pairwise fun a b => a.precedes b = true ∧ a ≠ b := by
  have hnodup : (seriesOf ranges).Nodup :=
    (List.mergeSort_perm _ _).nodup_iff.2 (nodup_eraseDups _)
  exact (List.pairwise_mergeSort Series.precedes_trans Series.precedes_total _).and hnodup

/-- A series is asked for if its stock after the cutoff is low. -/
theorem map_series_filterMap_proactive (s : Store) (now cutoff : Instant) (lowWater : Nat)
    (candidates : List Series) :
    (candidates.filterMap (proactive s now cutoff lowWater)).map (·.series) =
      candidates.filter fun series => s.countAvailable series cutoff.toMillis ≤ lowWater := by
  induction candidates with
  | nil => rfl
  | cons series rest ih =>
    rw [List.filterMap_cons, List.filter_cons, ← ih, proactive]
    by_cases hlow : s.countAvailable series cutoff.toMillis ≤ lowWater <;> simp [hlow]

/-! ## Ranges that are near expiry -/

/-- Whether a range is near expiry.  One whose expiry cannot be read is not. -/
def isNear (w : Watch) (now : Instant) (r : RangeRow) : Bool :=
  match Instant.ofMillis r.expiresAt with
  | .ok expiresAt => (classifyValidity expiresAt now w.nearDays).1 = .nearExpiry
  | .error _ => false

theorem isNear_of_ofMillis {r : RangeRow} {expiresAt : Instant}
    (h : Instant.ofMillis r.expiresAt = .ok expiresAt) : w.isNear now r = true ↔
      (classifyValidity expiresAt now w.nearDays).1 = .nearExpiry := by
  simp only [isNear, h, decide_eq_true_eq]

/-- A range that has not lapsed is near expiry, or outlasts the warning window. -/
theorem lt_expiresAt_of_not_isNear {r : RangeRow} {expiresAt : Instant} (hdays : 0 ≤ w.nearDays)
    (hcutoff : now.addDays? w.nearDays = some cutoff)
    (hread : Instant.ofMillis r.expiresAt = .ok expiresAt) (hlive : now.toMillis < r.expiresAt)
    (hnear : w.isNear now r = false) : cutoff.toMillis < r.expiresAt := by
  have hlate : now < expiresAt := Instant.not_le.1 (Instant.not_le_of_toMillis_lt hread hlive)
  have hwindow : w.nearDays < expiresAt.daysSince now := by
    by_contra hle
    refine Bool.false_ne_true (hnear.symm.trans ((isNear_of_ofMillis hread).2 ?_))
    exact classifyValidity_eq_nearExpiry_iff.2 ⟨hlate, Int.not_lt.1 hle⟩
  rw [← Instant.toMillis_of_ofMillis hread]
  exact Instant.toMillis_lt_of_lt_daysSince hdays hcutoff hwindow

/-! ## Stock by the ranges that hold it -/

/-- An active range that meets a condition has the folio. -/
def Backed (s : Store) (condition : RangeRow → Bool) (f : FolioRow) : Prop :=
  ∃ r ∈ s.ranges, r.id = f.rangeId ∧ r.status = .active ∧ condition r = true

instance (s : Store) (condition : RangeRow → Bool) : DecidablePred (Backed s condition) := fun f =>
  inferInstanceAs (Decidable (∃ r ∈ s.ranges, r.id = f.rangeId ∧ r.status = .active ∧ condition r))

/-- The available folios of a series in active ranges that meet a condition. -/
def stockIn (s : Store) (series : Series) (condition : RangeRow → Bool) : Nat :=
  (s.folios.filter fun f => f.series = series ∧ f.isAvailable ∧ Backed s condition f).length

theorem countAvailable_eq_stockIn (s : Store) (series : Series) (ms : Millis) :
    s.countAvailable series ms = stockIn s series fun r => ms < r.expiresAt := by
  unfold countAvailable assignable foliosOf stockIn
  rw [List.filter_filter]
  congr 1
  refine List.filter_congr fun f _ => ?_
  rw [Bool.eq_iff_iff]
  simp only [Bool.and_eq_true, decide_eq_true_eq, isLive_iff, Backed]
  tauto

section Backed

variable {p q : RangeRow → Bool} {f : FolioRow}

theorem backed_congr (h : ∀ r ∈ s.ranges, r.status = .active → p r = q r) :
    Backed s p f ↔ Backed s q f := by
  refine exists_congr fun r => and_congr_right fun hr => and_congr_right fun _ =>
    and_congr_right fun hact => ?_
  rw [h r hr hact]

theorem backed_and (h : Aligned s) :
    Backed s (fun r => p r && q r) f ↔ Backed s p f ∧ Backed s q f := by
  constructor
  · rintro ⟨r, hr, hid, hact, hboth⟩
    obtain ⟨hp, hq⟩ := Bool.and_eq_true_iff.1 hboth
    exact ⟨⟨r, hr, hid, hact, hp⟩, r, hr, hid, hact, hq⟩
  · rintro ⟨⟨r, hr, hid, hact, hp⟩, r', hr', hid', -, hq⟩
    obtain rfl := h.eq_of_id hr hr' (hid.trans hid'.symm)
    exact ⟨r, hr, hid, hact, Bool.and_eq_true_iff.2 ⟨hp, hq⟩⟩

theorem backed_and_not (h : Aligned s) :
    Backed s (fun r => p r && !q r) f ↔ Backed s p f ∧ ¬ Backed s q f := by
  constructor
  · rintro ⟨r, hr, hid, hact, hboth⟩
    obtain ⟨hp, hq⟩ := Bool.and_eq_true_iff.1 hboth
    refine ⟨⟨r, hr, hid, hact, hp⟩, ?_⟩
    rintro ⟨r', hr', hid', -, hq'⟩
    obtain rfl := h.eq_of_id hr hr' (hid.trans hid'.symm)
    rw [hq'] at hq
    cases hq
  · rintro ⟨⟨r, hr, hid, hact, hp⟩, hnone⟩
    refine ⟨r, hr, hid, hact, Bool.and_eq_true_iff.2 ⟨hp, ?_⟩⟩
    cases hq : q r with
    | false => rfl
    | true => exact absurd ⟨r, hr, hid, hact, hq⟩ hnone

end Backed

theorem stockIn_eq (s : Store) (series : Series) (condition : RangeRow → Bool) :
    stockIn s series condition =
      ((s.folios.filter fun f => f.series = series ∧ f.isAvailable).filter
        fun f => Backed s condition f).length := by
  unfold stockIn
  rw [List.filter_filter]
  congr 1
  refine List.filter_congr fun f _ => ?_
  rw [Bool.eq_iff_iff]
  simp only [Bool.and_eq_true, decide_eq_true_eq]
  exact and_assoc.symm.trans and_comm

theorem stockIn_congr {p q : RangeRow → Bool}
    (h : ∀ r ∈ s.ranges, r.status = .active → p r = q r) :
    stockIn s series p = stockIn s series q := by
  simp only [stockIn_eq, backed_congr h]

/-- Every folio is in one range, which either meets a further condition or does not. -/
theorem stockIn_add (h : Aligned s) (series : Series) (p q : RangeRow → Bool) :
    stockIn s series p =
      stockIn s series (fun r => p r && !q r) + stockIn s series fun r => p r && q r := by
  simp only [stockIn_eq]
  generalize (s.folios.filter fun f => f.series = series ∧ f.isAvailable) = stock
  rw [List.length_eq_length_filter_add fun f => decide (Backed s q f), Nat.add_comm,
    List.filter_filter, List.filter_filter]
  congr 2
  · refine List.filter_congr fun f _ => ?_
    simp [backed_and_not h, Bool.and_comm]
  · refine List.filter_congr fun f _ => ?_
    simp [backed_and (q := q) h, Bool.and_comm]

theorem stockIn_eq_zero (h : Aligned s) {condition : RangeRow → Bool}
    (hnone : ∀ r ∈ s.ranges, r.series = series → r.status = .active → condition r = false) :
    stockIn s series condition = 0 := by
  rw [stockIn, List.length_eq_zero_iff, List.filter_eq_nil_iff]
  intro f hf hstock
  obtain ⟨hseries, -, r, hr, hid, hact, hcondition⟩ := of_decide_eq_true hstock
  have hsame : f.series = r.series := (h.of_rangeId hf hr hid.symm).1
  rw [hnone r hr (hsame.symm.trans hseries) hact] at hcondition
  cases hcondition

/-! ## Series that are due -/

/-- A series that a new range is to be asked for: one of its active ranges is near expiry, and the
stock in the others is low. -/
structure Due (w : Watch) (now : Instant) (s : Store) (lowWater : Nat) (series : Series) : Prop where
  near : ∃ r ∈ s.ranges, r.series = series ∧ r.status = .active ∧ w.isNear now r = true
  low : stockIn s series (fun r => !w.isNear now r) ≤ lowWater

/-- The series that a sweep asks for. -/
def asked (w : Watch) (s : Store) (now : Instant) : List Series :=
  (w.sweep s now).2.2.triggers.map (·.series)

/-- The store after a sweep. -/
abbrev swept (w : Watch) (s : Store) (now : Instant) : Store := (w.sweep s now).2.1

namespace Completes

variable {report : SweepReport} {active : List Range} {lowWater : Nat}

/-- The active ranges after a sweep can be read, and have not lapsed. -/
theorem read_and_live (h : w.Completes s now report t active) {r : RangeRow}
    (hr : r ∈ (w.swept s now).ranges) (hact : r.status = .active) :
    ∃ d ∈ active, d.series = r.series ∧ Instant.ofMillis r.expiresAt = .ok d.expiresAt ∧
      now.toMillis < r.expiresAt := by
  obtain ⟨q, hq, -, hseries, hstatus, hexpires⟩ := h.store.symm.exists_range hr
  obtain ⟨d, hd, hread⟩ := (listed_active h.listed).2 q hq (hstatus.trans hact)
  obtain ⟨-, hsame, -, hexpiry⟩ := RangeRecord.toRange_eq_ok hread
  refine ⟨d, hd, hsame.trans hseries, hexpires ▸ hexpiry, ?_⟩
  rw [h.after_expire, mem_setStatus] at hq
  obtain ⟨row, -, rfl⟩ := hq
  split at hstatus
  · rw [hact] at hstatus
    cases hstatus
  · next hdue =>
    rw [if_neg hdue] at hexpires
    rw [hact] at hstatus
    rw [← hexpires]
    exact Int.not_le.1 fun hle => hdue (isDue_iff.2 ⟨hstatus, hle⟩)

/-- The series that are looked at are those with an active range near expiry. -/
theorem mem_seriesOf_near (h : w.Completes s now report t active) :
    series ∈ seriesOf (w.nearExpiry now active) ↔
      ∃ r ∈ (w.swept s now).ranges, r.series = series ∧ r.status = .active ∧
        w.isNear now r = true := by
  rw [mem_seriesOf]
  constructor
  · rintro ⟨d, hd, rfl⟩
    obtain ⟨hd, hnear⟩ := List.mem_filter.1 hd
    obtain ⟨q, hq, hact, hread⟩ := (listed_active h.listed).1 d hd
    obtain ⟨r, hr, -, hseries, hstatus, hexpires⟩ := h.store.exists_range hq
    obtain ⟨-, hsame, -, hexpiry⟩ := RangeRecord.toRange_eq_ok hread
    rw [← hexpires] at hexpiry
    refine ⟨r, hr, hseries.trans hsame.symm, hstatus.trans hact, ?_⟩
    exact (isNear_of_ofMillis hexpiry).2 (of_decide_eq_true hnear)
  · rintro ⟨r, hr, rfl, hact, hnear⟩
    obtain ⟨d, hd, hseries, hread, -⟩ := h.read_and_live hr hact
    exact ⟨d, List.mem_filter.2 ⟨hd, decide_eq_true ((isNear_of_ofMillis hread).1 hnear)⟩, hseries⟩

theorem aligned (h : w.Completes s now report t active) (hs : Aligned s) :
    Aligned (w.swept s now) := by
  refine h.store.aligned ?_
  rw [h.after_expire]
  exact hs.setStatus _ _

/-- What outlasts the warning window is what is not near expiry, and what expires on the last day. -/
theorem countAvailable_eq (h : w.Completes s now report t active) (hs : Aligned s)
    (hdays : 0 ≤ w.nearDays) (hcutoff : now.addDays? w.nearDays = some cutoff) (series : Series) :
    (w.swept s now).countAvailable series cutoff.toMillis =
      stockIn (w.swept s now) series (fun r => !w.isNear now r) +
        stockIn (w.swept s now) series fun r => cutoff.toMillis < r.expiresAt && w.isNear now r := by
  rw [countAvailable_eq_stockIn, stockIn_add (h.aligned hs) series _ (w.isNear now ·)]
  congr 1
  refine stockIn_congr fun r hr hact => ?_
  obtain ⟨d, -, -, hread, hlive⟩ := h.read_and_live hr hact
  cases hnear : w.isNear now r with
  | true => simp
  | false =>
    have hlasts := lt_expiresAt_of_not_isNear hdays hcutoff hread hlive hnear
    simp [hlasts]

theorem asked_eq (h : w.Completes s now report t active) (hlow : w.lowWater = some lowWater) :
    ∃ cutoff, now.addDays? w.nearDays = some cutoff ∧
      w.asked s now = (seriesOf (w.nearExpiry now active)).filter fun series =>
        (w.swept s now).countAvailable series cutoff.toMillis ≤ lowWater := by
  rcases triggers_eq_ok h.triggers with ⟨hnone, -⟩ | ⟨lowWater', cutoff, hsome, hcutoff, htriggers⟩
  · rw [hlow] at hnone
    cases hnone
  · obtain rfl : lowWater = lowWater' := Option.some.inj (hlow.symm.trans hsome)
    refine ⟨cutoff, hcutoff, ?_⟩
    rw [asked, htriggers, map_series_filterMap_proactive]

end Completes

/-! ## Asking rightly -/

/-- A sweep asks once for each series that is due and for no other, in their order, and reports
which. -/
structure AsksRightly (w : Watch) (s : Store) (now : Instant) (lowWater : Nat) : Prop where
  asked_iff : ∀ series, series ∈ w.asked s now ↔ w.Due now (w.swept s now) lowWater series
  ordered : (w.asked s now).Pairwise fun a b => a.precedes b = true ∧ a ≠ b
  reported : ∀ report, (w.sweep s now).1 = .ok report → report.triggered = w.asked s now

/-- A sweep reaches its end, and what a series has in ranges that outlast the warning window is low,
those included that expire on its last day. -/
def Reaches (w : Watch) (s : Store) (now : Instant) (lowWater : Nat) (series : Series) : Prop :=
  (∃ report, (w.sweep s now).1 = .ok report) ∧
    ∃ cutoff, now.addDays? w.nearDays = some cutoff ∧
      stockIn (w.swept s now) series (fun r => !w.isNear now r) +
        stockIn (w.swept s now) series (fun r => cutoff.toMillis < r.expiresAt && w.isNear now r) ≤
          lowWater

theorem asked_ordered (w : Watch) (s : Store) (now : Instant) :
    (w.asked s now).Pairwise fun a b => a.precedes b = true ∧ a ≠ b := by
  rcases w.completes_or_halts s now with ⟨report, t, active, h⟩ | ⟨halt, -, hnone⟩
  · rcases triggers_eq_ok h.triggers with ⟨-, hnone⟩ | ⟨lowWater, cutoff, -, -, hsome⟩
    · rw [asked, hnone]
      exact .nil
    · rw [asked, hsome, map_series_filterMap_proactive]
      exact (seriesOf_ordered _).filter _
  · rw [asked, hnone]
    exact .nil

theorem reported_asked {report : SweepReport} (h : (w.sweep s now).1 = .ok report) :
    report.triggered = w.asked s now := by
  obtain ⟨t, active, hsweep⟩ := exists_completes h
  exact hsweep.report

/-- Exactly those series are asked for that are due and for which the sweep gets there. -/
theorem mem_asked_iff (hs : Aligned s) {lowWater : Nat} (hlow : w.lowWater = some lowWater)
    (hdays : 0 ≤ w.nearDays) : series ∈ w.asked s now ↔
      w.Due now (w.swept s now) lowWater series ∧ w.Reaches s now lowWater series := by
  rcases w.completes_or_halts s now with ⟨report, t, active, h⟩ | ⟨halt, herror, hnone⟩
  · obtain ⟨cutoff, hcutoff, hasked⟩ := h.asked_eq hlow
    have hcount := h.countAvailable_eq hs hdays hcutoff series
    rw [hasked, List.mem_filter, h.mem_seriesOf_near, decide_eq_true_iff, hcount]
    constructor
    · rintro ⟨hnear, hle⟩
      exact ⟨⟨hnear, Nat.le_trans (Nat.le_add_right ..) hle⟩, ⟨report, h.result⟩, cutoff, hcutoff, hle⟩
    · rintro ⟨hdue, -, cutoff', hcutoff', hle⟩
      obtain rfl : cutoff = cutoff' := Option.some.inj (hcutoff.symm.trans hcutoff')
      exact ⟨hdue.near, hle⟩
  · rw [asked, hnone]
    refine iff_of_false (List.not_mem_nil) ?_
    rintro ⟨-, ⟨report, hok⟩, -⟩
    rw [herror] at hok
    cases hok

/-- A sweep that reaches its end gets to every series that is due and has no range that is near expiry
and outlasts the window. -/
theorem Due.reaches {lowWater : Nat} (h : w.Due now (w.swept s now) lowWater series)
    (hs : Aligned s) {report : SweepReport} (hsweep : (w.sweep s now).1 = .ok report)
    (hcutoff : now.addDays? w.nearDays = some cutoff)
    (hwindow : ∀ r ∈ (w.swept s now).ranges, r.series = series → r.status = .active →
      w.isNear now r = true → r.expiresAt ≤ cutoff.toMillis) :
    w.Reaches s now lowWater series := by
  obtain ⟨t, active, hcompletes⟩ := exists_completes hsweep
  have hnone : stockIn (w.swept s now) series
      (fun r => cutoff.toMillis < r.expiresAt && w.isNear now r) = 0 := by
    refine stockIn_eq_zero (hcompletes.aligned hs) fun r hr hseries hact => ?_
    cases hnear : w.isNear now r with
    | true => simpa using hwindow r hr hseries hact hnear
    | false => exact Bool.and_false _
  refine ⟨⟨report, hsweep⟩, cutoff, hcutoff, ?_⟩
  rw [hnone]
  exact h.low

/-- A sweep asks rightly exactly if it gets there for every series that is due. -/
theorem asksRightly_iff {lowWater : Nat} (hlow : w.lowWater = some lowWater) (hdays : 0 ≤ w.nearDays)
    (es : List Event) (now : Instant) :
    w.AsksRightly (Store.empty.run es) now lowWater ↔
      ∀ series, w.Due now (w.swept (Store.empty.run es) now) lowWater series →
        w.Reaches (Store.empty.run es) now lowWater series := by
  have hmem : ∀ series, series ∈ w.asked (Store.empty.run es) now ↔ _ := fun series =>
    mem_asked_iff (run_coherent es).toAligned hlow hdays
  constructor
  · intro h series hdue
    exact ((hmem series).1 ((h.asked_iff series).2 hdue)).2
  · intro h
    refine ⟨fun series => ?_, asked_ordered .., fun report => reported_asked⟩
    rw [hmem]
    exact ⟨And.left, fun hdue => ⟨hdue, h series hdue⟩⟩

/-- A range that expires within the minute. -/
def lastMinute : List Event :=
  [⟨earlyAt 0, .register 10 none "low" ⟨⟨"A", "T"⟩, 1, 5, earlyAt 0, earlyAt 50, none, none⟩⟩]

/-- The end of a window of 15 days from 1970. -/
def windowEnd : Instant := (Instant.ofParts? 1296000 0).getD .epoch

/-- The series is due, and is asked for. -/
theorem asksRightly_lastMinute :
    (Watch.mk 15 (some 3)).AsksRightly (Store.empty.run lastMinute) (earlyAt 0) 3 ∧
      (Watch.mk 15 (some 3)).asked (Store.empty.run lastMinute) (earlyAt 0) = [⟨"A", "T"⟩] := by
  refine ⟨(asksRightly_iff rfl (by decide) lastMinute (earlyAt 0)).2 ?_, by decide +kernel⟩
  have hlast : ∀ r ∈ ((Watch.mk 15 (some 3)).swept (Store.empty.run lastMinute) (earlyAt 0)).ranges,
      r.expiresAt ≤ windowEnd.toMillis := by
    decide +kernel
  have hsweep : ((Watch.mk 15 (some 3)).sweep (Store.empty.run lastMinute) (earlyAt 0)).1 =
      .ok ⟨1, [], ["low"], [⟨"A", "T"⟩]⟩ := by
    decide +kernel
  have hwindow : (earlyAt 0).addDays? 15 = some windowEnd := by decide +kernel
  exact fun series hdue => hdue.reaches (run_coherent lastMinute).toAligned hsweep hwindow
    fun r hr _ _ _ => hlast r hr

/-- Half a day beyond a window of 15 days from 1970. -/
def beyondWindow : Instant := (Instant.ofParts? 1339200 0).getD .epoch

/-- A range that expires half a day beyond the window. -/
def lastDay : List Event :=
  [⟨earlyAt 0, .register 10 none "low" ⟨⟨"A", "T"⟩, 1, 5, earlyAt 0, beyondWindow, none, none⟩⟩]

/-- The range is near expiry and nothing else is in stock, and yet the series is not asked for. -/
theorem due_and_not_asked :
    (Watch.mk 15 (some 3)).Due (earlyAt 0)
        ((Watch.mk 15 (some 3)).swept (Store.empty.run lastDay) (earlyAt 0)) 3 ⟨"A", "T"⟩ ∧
      ((Watch.mk 15 (some 3)).sweep (Store.empty.run lastDay) (earlyAt 0)).1 =
        .ok ⟨1, [], ["low"], []⟩ ∧
      ¬ (Watch.mk 15 (some 3)).AsksRightly (Store.empty.run lastDay) (earlyAt 0) 3 := by
  have hdue : (Watch.mk 15 (some 3)).Due (earlyAt 0)
      ((Watch.mk 15 (some 3)).swept (Store.empty.run lastDay) (earlyAt 0)) 3 ⟨"A", "T"⟩ :=
    ⟨by decide +kernel, by decide +kernel⟩
  have hnone : (Watch.mk 15 (some 3)).asked (Store.empty.run lastDay) (earlyAt 0) = [] := by
    decide +kernel
  refine ⟨hdue, by decide +kernel, fun h => ?_⟩
  have hasked := (h.asked_iff ⟨"A", "T"⟩).2 hdue
  rw [hnone] at hasked
  cases hasked

end Watch

end FolioLedger
