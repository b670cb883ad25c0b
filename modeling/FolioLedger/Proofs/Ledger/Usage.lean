import FolioLedger.Proofs.Cli.Days
import FolioLedger.Proofs.Ledger.Stamps

/-!
# Usage reports

A report lists the folios of a series whose time lies in a period, and counts them by their status.
`Within` is that condition in the milliseconds of the store; `Reportable` says that a report can be
given at all, as it names the expiries of the active ranges, too.

The report of a period is put together from those of two parts (`UsageReport.Joins`) if the times that
the folios bear fall into the one part or the other (`FallsApart`), and not otherwise.  On the scale of
the store they always do (`fallsApart_of_onScale`).  An instant in a leap second is kept as one of the
following second, so that a part that ends there takes in what the next part lists again.

The reports of days need no such condition: no day begins or ends in a leap second
(`existsUnique_reportedOn`).
-/

namespace FolioLedger

open Store

/-! ## Folios by range -/

namespace Store

variable {s : Store} {series : Series}

theorem countOf_eq (s : Store) (id : String) :
    s.countOf id .available + s.countOf id .used + s.countOf id .void =
      (s.folios.filter (·.rangeId = id)).length := by
  unfold countOf
  induction s.folios with
  | nil => rfl
  | cons f rest ih =>
    by_cases hid : f.rangeId = id
    · cases hst : f.state.status <;> simp [hid, hst] at ih ⊢ <;> omega
    · simpa [List.filter_cons, hid] using ih

/-- A range has one folio for each of its numbers. -/
theorem Aligned.length_folios_of_range (h : Aligned s) {r : RangeRow} (hr : r ∈ s.ranges) :
    (s.folios.filter (·.rangeId = r.id)).length = r.last + 1 - r.first := by
  have hnodup : ((s.folios.filter (·.rangeId = r.id)).map (·.number)).Nodup := by
    have hseries : ∀ f ∈ s.folios.filter (·.rangeId = r.id), f.series = r.series := fun f hf =>
      have ⟨hmem, hid⟩ := List.mem_filter.1 hf
      (h.of_rangeId hmem hr (of_decide_eq_true hid)).1
    exact h.nodup_numbers List.filter_sublist hseries
  have hnumbers : ((s.folios.filter (·.rangeId = r.id)).map (·.number)).Perm
      (List.range' r.first (r.last + 1 - r.first)) := by
    refine (List.perm_ext_iff_of_nodup hnodup List.nodup_range').2 fun n => ?_
    rw [List.mem_map, List.mem_range'_1]
    constructor
    · rintro ⟨f, hf, rfl⟩
      obtain ⟨hf, hid⟩ := List.mem_filter.1 hf
      obtain ⟨-, hfirst, hlast⟩ := h.of_rangeId hf hr (of_decide_eq_true hid)
      omega
    · rintro ⟨hfirst, hlast⟩
      obtain ⟨f, hf, -, hnumber, hid⟩ := h.exists_folio hr hfirst (by omega)
      exact ⟨f, List.mem_filter.2 ⟨hf, decide_eq_true hid⟩, hnumber⟩
  simpa using hnumbers.length_eq

theorem Aligned.countOf_add (h : Aligned s) {r : RangeRow} (hr : r ∈ s.ranges) :
    s.countOf r.id .available + s.countOf r.id .used + s.countOf r.id .void =
      r.last - r.first + 1 := by
  obtain ⟨-, hle⟩ := h.bounds r hr
  rw [s.countOf_eq r.id, h.length_folios_of_range hr, Nat.succ_sub hle]

end Store

theorem RangeRecord.numbers_of_toRange {r : RangeRow} {d : Range} (h : r.toRange = .ok d) :
    d.id = r.id ∧ d.first = r.first ∧ d.last = r.last := by
  unfold toRange at h
  obtain ⟨_, -, h⟩ := bind_eq_ok.1 h
  obtain ⟨_, -, h⟩ := bind_eq_ok.1 h
  obtain ⟨_, -, h⟩ := bind_eq_ok.1 h
  obtain ⟨_, -, h⟩ := bind_eq_ok.1 h
  cases h
  exact ⟨rfl, rfl, rfl⟩

/-! ## What a report lists -/

theorem exists_mapM_iff {α β : Type} {g : α → Except Failure β} {rows : List α} :
    (∃ ds, rows.mapM g = .ok ds) ↔ ∀ a ∈ rows, ∃ d, g a = .ok d := by
  constructor
  · rintro ⟨ds, h⟩ a ha
    obtain ⟨d, -, hd⟩ := exists_mem_of_mapM h ha
    exact ⟨d, hd⟩
  · intro h
    induction rows with
    | nil => exact ⟨[], rfl⟩
    | cons a rows ih =>
      rw [List.forall_mem_cons] at h
      obtain ⟨d, hd⟩ := h.1
      obtain ⟨ds, hds⟩ := ih h.2
      refine ⟨d :: ds, ?_⟩
      rw [List.mapM_cons, hd, hds]
      rfl

namespace Store

variable {s : Store} {series : Series} {start stop : Instant} {report : UsageReport}

/-- The expiries of the active ranges of a series can be read back. -/
def Reportable (s : Store) (series : Series) : Prop :=
  ∀ r ∈ s.ranges, r.series = series → r.status = .active →
    ∃ t, Instant.ofMillis r.expiresAt = .ok t

theorem mem_changedFolios {f : FolioRow} {first last : Millis} :
    f ∈ s.changedFolios series first last ↔
      f ∈ s.folios ∧ f.series = series ∧ changedWithin f first last = true := by
  simp [changedFolios, mem_foliosOf, and_assoc]

theorem mem_activeRanges {r : RangeRow} :
    r ∈ s.activeRanges series ↔ r ∈ s.ranges ∧ r.series = series ∧ r.status = .active := by
  simp [activeRanges]

theorem usageReport_eq_ok (h : s.usageReport series start stop = .ok report) :
    ¬ stop < start ∧
      (s.changedFolios series start.toMillis stop.toMillis).mapM FolioRow.toFolio =
        .ok report.folios ∧
      (s.activeRanges series).mapM s.rangeUsage = .ok report.activeRanges ∧
      report.used = (report.folios.filter (·.status = .used)).length ∧
      report.voided = (report.folios.filter (·.status = .void)).length := by
  unfold usageReport at h
  split at h
  · cases h
  · next horder =>
    obtain ⟨folios, hfolios, h⟩ := bind_eq_ok.1 h
    obtain ⟨ranges, hranges, h⟩ := bind_eq_ok.1 h
    cases h
    exact ⟨horder, hfolios, hranges, rfl, rfl⟩

theorem exists_rangeUsage_iff {r : RangeRow} :
    (∃ u, s.rangeUsage r = .ok u) ↔ ∃ t, Instant.ofMillis r.expiresAt = .ok t := by
  constructor
  · rintro ⟨u, h⟩
    obtain ⟨t, ht, -⟩ := bind_eq_ok.1 h
    exact ⟨t, ht⟩
  · rintro ⟨t, ht⟩
    unfold rangeUsage
    rw [ht]
    exact ⟨_, rfl⟩

/-- A report is given for a period that does not end before it starts, as long as the expiries that it
names can be read back. -/
theorem exists_report_iff (h : s.Stamped) :
    (∃ report, s.usageReport series start stop = .ok report) ↔
      ¬ stop < start ∧ s.Reportable series := by
  have hranges : (∃ us, (s.activeRanges series).mapM s.rangeUsage = .ok us) ↔
      s.Reportable series := by
    rw [exists_mapM_iff]
    simp only [exists_rangeUsage_iff, mem_activeRanges, and_imp]
    rfl
  constructor
  · rintro ⟨report, hreport⟩
    obtain ⟨horder, -, hactive, -⟩ := usageReport_eq_ok hreport
    exact ⟨horder, hranges.1 ⟨_, hactive⟩⟩
  · rintro ⟨horder, hreportable⟩
    obtain ⟨folios, hfolios⟩ := exists_mapM_iff.2 fun f hf =>
      FolioRow.exists_toFolio_iff.2 (h f (mem_changedFolios.1 hf).1)
    obtain ⟨us, hus⟩ := hranges.2 hreportable
    unfold usageReport
    rw [if_neg horder, hfolios, hus]
    exact ⟨_, rfl⟩

/-- What is listed: the folios of the series that were used or voided in the period. -/
theorem mem_report (hreport : s.usageReport series start stop = .ok report) {d : Folio} :
    d ∈ report.folios ↔ ∃ f ∈ s.folios, f.series = series ∧
      changedWithin f start.toMillis stop.toMillis = true ∧ f.toFolio = .ok d := by
  obtain ⟨-, hfolios, -⟩ := usageReport_eq_ok hreport
  constructor
  · intro hd
    obtain ⟨f, hf, hread⟩ := exists_of_mem_mapM hfolios hd
    obtain ⟨hmem, hseries, hwithin⟩ := mem_changedFolios.1 hf
    exact ⟨f, hmem, hseries, hwithin, hread⟩
  · rintro ⟨f, hmem, hseries, hwithin, hread⟩
    obtain ⟨d', hd', hread'⟩ :=
      exists_mem_of_mapM hfolios (mem_changedFolios.2 ⟨hmem, hseries, hwithin⟩)
    obtain rfl := Except.ok.inj (hread.symm.trans hread')
    exact hd'

theorem pairwise_changedFolios (h : Aligned s) (series : Series) (first last : Millis) :
    (s.changedFolios series first last).Pairwise (·.number < ·.number) := by
  have hseries : ∀ f ∈ (s.foliosOf series).filter (changedWithin · first last), f.series = series :=
    fun f hf => (mem_foliosOf.1 (List.mem_filter.1 hf).1).2
  exact pairwise_mergeSort_number
    (h.nodup_numbers (List.filter_sublist.trans List.filter_sublist) hseries)

theorem report_ascending (h : Aligned s)
    (hreport : s.usageReport series start stop = .ok report) :
    report.folios.Pairwise (·.number < ·.number) := by
  obtain ⟨-, hfolios, -⟩ := usageReport_eq_ok hreport
  have hnumbers : report.folios.map (·.number) =
      (s.changedFolios series start.toMillis stop.toMillis).map (·.number) :=
    map_eq_of_mapM _ _ (fun _ _ hread => (FolioRow.toFolio_eq_ok hread).2.1) hfolios
  have hrows := pairwise_changedFolios h series start.toMillis stop.toMillis
  rw [← List.pairwise_map (R := (· < ·))] at hrows ⊢
  rwa [hnumbers]

/-- The folios of a status that are listed. -/
theorem count_report (hreport : s.usageReport series start stop = .ok report) (status : FolioStatus) :
    (report.folios.filter (·.status = status)).length = s.folios.countP fun f =>
      f.series = series ∧ changedWithin f start.toMillis stop.toMillis ∧ f.state.status = status := by
  obtain ⟨-, hfolios, -⟩ := usageReport_eq_ok hreport
  have hstatuses : report.folios.map (·.status) =
      (s.changedFolios series start.toMillis stop.toMillis).map (·.state.status) :=
    map_eq_of_mapM _ _ (fun _ _ hread => FolioRow.status_of_toFolio hread) hfolios
  have hrows : (report.folios.filter (·.status = status)).length =
      (s.changedFolios series start.toMillis stop.toMillis).countP (·.state.status = status) := by
    have hcount := congrArg (List.countP (· = status)) hstatuses
    rw [List.countP_map, List.countP_map] at hcount
    rw [← List.countP_eq_length_filter]
    exact hcount
  rw [hrows, changedFolios, (List.mergeSort_perm _ _).countP_eq, foliosOf, List.countP_filter,
    List.countP_filter]
  refine List.countP_congr fun f _ => ?_
  simp only [Bool.and_eq_true, decide_eq_true_eq]
  tauto

end Store

/-! ## Reports of consecutive periods -/

/-- The time lies in a period, on the scale of the store. -/
def Within (start stop : Instant) (ms : Millis) : Prop := start.toMillis ≤ ms ∧ ms ≤ stop.toMillis

/-- The report lists what two others list, and each folio once. -/
structure UsageReport.Joins (whole first rest : UsageReport) : Prop where
  ascending : whole.folios.Pairwise (·.number < ·.number)
  listed : ∀ d, d ∈ whole.folios ↔ d ∈ first.folios ∨ d ∈ rest.folios
  apart : ∀ d ∈ first.folios, d ∉ rest.folios
  used : whole.used = first.used + rest.used
  voided : whole.voided = first.voided + rest.voided
  counted : whole.used + whole.voided = whole.folios.length

namespace Store

variable {s : Store} {series : Series} {start mid next stop : Instant}

/-- The report of a period is put together from those of its two parts. -/
def ReportsJoin (s : Store) (series : Series) (start mid next stop : Instant) : Prop :=
  ∃ whole first rest, s.usageReport series start stop = .ok whole ∧
    s.usageReport series start mid = .ok first ∧ s.usageReport series next stop = .ok rest ∧
    whole.Joins first rest

/-- A period falls into two parts: none of the times at which folios of the series were used or voided is
lost, and none lies in both. -/
structure FallsApart (s : Store) (series : Series) (start mid next stop : Instant) : Prop where
  ordered : ¬ stop < next
  once : ∀ f ∈ s.folios, f.series = series → ∀ ms ∈ f.state.changedAt,
    (Within start stop ms ↔ Within start mid ms ∨ Within next stop ms) ∧
      ¬ (Within start mid ms ∧ Within next stop ms)

theorem countP_add {α : Type} {p q r : α → Bool} {l : List α}
    (h : ∀ a ∈ l, (p a = true ↔ q a = true ∨ r a = true) ∧ ¬ (q a = true ∧ r a = true)) :
    l.countP p = l.countP q + l.countP r := by
  induction l with
  | nil => rfl
  | cons a l ih =>
    rw [List.forall_mem_cons] at h
    obtain ⟨⟨hor, hnot⟩, hrest⟩ := h
    rw [List.countP_cons, List.countP_cons, List.countP_cons, ih hrest]
    cases hp : p a <;> cases hq : q a <;> cases hr : r a <;> simp_all <;> omega

theorem within_iff_of_changedAt {f : FolioRow} {ms : Millis} (h : f.state.changedAt = some ms) :
    changedWithin f start.toMillis stop.toMillis = true ↔ Within start stop ms := by
  rw [changedWithin_iff, h]
  simp [Within]

/-- The folios of a series fall into those of the two parts. -/
theorem FallsApart.changedWithin (h : s.FallsApart series start mid next stop) {f : FolioRow}
    (hf : f ∈ s.folios) (hseries : f.series = series) :
    (changedWithin f start.toMillis stop.toMillis = true ↔
      changedWithin f start.toMillis mid.toMillis = true ∨
        changedWithin f next.toMillis stop.toMillis = true) ∧
      ¬ (changedWithin f start.toMillis mid.toMillis = true ∧
        changedWithin f next.toMillis stop.toMillis = true) := by
  cases hms : f.state.changedAt with
  | none => simp [changedWithin_iff, hms]
  | some ms =>
    simp only [within_iff_of_changedAt hms]
    exact h.once f hf hseries ms hms

/-- A folio is listed exactly if its own time lies in the period. -/
theorem mem_report_iff (hs : Aligned s) {report : UsageReport}
    (hreport : s.usageReport series start stop = .ok report) {f : FolioRow} (hf : f ∈ s.folios)
    (hseries : f.series = series) {d : Folio} (hread : f.toFolio = .ok d) :
    d ∈ report.folios ↔ changedWithin f start.toMillis stop.toMillis = true := by
  rw [mem_report hreport]
  constructor
  · rintro ⟨g, hg, hseries', hwithin, hread'⟩
    obtain ⟨hfs, hfn, -⟩ := FolioRow.toFolio_eq_ok hread
    obtain ⟨hgs, hgn, -⟩ := FolioRow.toFolio_eq_ok hread'
    rwa [hs.eq_of_number hf hg (hfs.symm.trans hgs) (hfn.symm.trans hgn)]
  · intro hwithin
    exact ⟨f, hf, hseries, hwithin, hread⟩

theorem used_add_voided {report : UsageReport}
    (hreport : s.usageReport series start stop = .ok report) :
    report.used + report.voided = report.folios.length := by
  obtain ⟨-, -, -, hused, hvoided⟩ := usageReport_eq_ok hreport
  rw [hused, hvoided, ← List.countP_eq_length_filter, ← List.countP_eq_length_filter,
    ← List.countP_true, eq_comm]
  refine countP_add fun d hd => ?_
  obtain ⟨f, -, -, hwithin, hread⟩ := (mem_report hreport).1 hd
  obtain ⟨ms, hms, -⟩ := changedWithin_iff.1 hwithin
  have hne : d.status ≠ .available := by
    rw [FolioRow.status_of_toFolio hread, Ne, ← FolioState.changedAt_eq_none, Option.mem_def.1 hms]
    nofun
  cases hst : d.status <;> simp_all

theorem reportsJoin_of_fallsApart (hs : Aligned s) (hstamped : s.Stamped)
    (hreportable : s.Reportable series) (horder : ¬ stop < start) (horder' : ¬ mid < start)
    (h : s.FallsApart series start mid next stop) : s.ReportsJoin series start mid next stop := by
  obtain ⟨whole, hwhole⟩ := (exists_report_iff hstamped).2 ⟨horder, hreportable⟩
  obtain ⟨first, hfirst⟩ := (exists_report_iff hstamped).2 ⟨horder', hreportable⟩
  obtain ⟨rest, hrest⟩ := (exists_report_iff hstamped).2 ⟨h.ordered, hreportable⟩
  have hcounts : ∀ status,
      (whole.folios.filter (·.status = status)).length =
        (first.folios.filter (·.status = status)).length +
          (rest.folios.filter (·.status = status)).length := by
    intro status
    rw [count_report hwhole, count_report hfirst, count_report hrest]
    refine countP_add fun f hf => ?_
    simp only [decide_eq_true_eq]
    by_cases hseries : f.series = series
    · obtain ⟨hor, hnot⟩ := h.changedWithin hf hseries
      tauto
    · tauto
  obtain ⟨-, -, -, hused, hvoided⟩ := usageReport_eq_ok hwhole
  obtain ⟨-, -, -, hused₁, hvoided₁⟩ := usageReport_eq_ok hfirst
  obtain ⟨-, -, -, hused₂, hvoided₂⟩ := usageReport_eq_ok hrest
  refine ⟨whole, first, rest, hwhole, hfirst, hrest, report_ascending hs hwhole, fun d => ?_, ?_, ?_,
    ?_, used_add_voided hwhole⟩
  · constructor
    · intro hd
      obtain ⟨f, hf, hseries, hwithin, hread⟩ := (mem_report hwhole).1 hd
      rw [mem_report_iff hs hfirst hf hseries hread, mem_report_iff hs hrest hf hseries hread]
      exact (h.changedWithin hf hseries).1.1 hwithin
    · rintro (hd | hd)
      · obtain ⟨f, hf, hseries, hwithin, hread⟩ := (mem_report hfirst).1 hd
        rw [mem_report_iff hs hwhole hf hseries hread]
        exact (h.changedWithin hf hseries).1.2 (.inl hwithin)
      · obtain ⟨f, hf, hseries, hwithin, hread⟩ := (mem_report hrest).1 hd
        rw [mem_report_iff hs hwhole hf hseries hread]
        exact (h.changedWithin hf hseries).1.2 (.inr hwithin)
  · intro d hd hd'
    obtain ⟨f, hf, hseries, hwithin, hread⟩ := (mem_report hfirst).1 hd
    rw [mem_report_iff hs hrest hf hseries hread] at hd'
    exact (h.changedWithin hf hseries).2 ⟨hwithin, hd'⟩
  · rw [hused, hused₁, hused₂, hcounts]
  · rw [hvoided, hvoided₁, hvoided₂, hcounts]

theorem ReportsJoin.fallsApart (hs : Aligned s) (hstamped : s.Stamped)
    (h : s.ReportsJoin series start mid next stop) :
    s.Reportable series ∧ s.FallsApart series start mid next stop := by
  obtain ⟨whole, first, rest, hwhole, hfirst, hrest, hjoins⟩ := h
  obtain ⟨-, hreportable⟩ := (exists_report_iff hstamped).1 ⟨whole, hwhole⟩
  obtain ⟨horder, -⟩ := usageReport_eq_ok hrest
  refine ⟨hreportable, horder, fun f hf hseries ms hms => ?_⟩
  obtain ⟨d, hread⟩ := FolioRow.exists_toFolio_iff.2 (hstamped f hf)
  have hlisted := hjoins.listed d
  have hapart := hjoins.apart d
  rw [mem_report_iff hs hwhole hf hseries hread, mem_report_iff hs hfirst hf hseries hread,
    mem_report_iff hs hrest hf hseries hread, within_iff_of_changedAt hms,
    within_iff_of_changedAt hms, within_iff_of_changedAt hms] at hlisted
  rw [mem_report_iff hs hfirst hf hseries hread, mem_report_iff hs hrest hf hseries hread,
    within_iff_of_changedAt hms, within_iff_of_changedAt hms] at hapart
  exact ⟨hlisted, fun hboth => hapart hboth.1 hboth.2⟩

theorem between_split {a m b : Int} (hle : a ≤ m) (hlt : m < b) (ms : Int) :
    (a ≤ ms ∧ ms ≤ b ↔ (a ≤ ms ∧ ms ≤ m) ∨ (m + 1 ≤ ms ∧ ms ≤ b)) ∧
      ¬ ((a ≤ ms ∧ ms ≤ m) ∧ m + 1 ≤ ms ∧ ms ≤ b) := by
  omega

/-- On the scale of the store a period falls into the part up to an instant and the part from the next
millisecond on. -/
theorem fallsApart_of_onScale (hstart : start.OnScale) (hmid : mid.OnScale) (hstop : stop.OnScale)
    (hle : start ≤ mid) (hlt : mid < stop) (hnext : mid.addMillis? 1 = some next) :
    s.FallsApart series start mid next stop := by
  obtain ⟨next', hnext', hscale, hmillis⟩ := hmid.exists_next hstop hlt
  obtain rfl := Option.some.inj (hnext.symm.trans hnext')
  have hstarts : start.toMillis ≤ mid.toMillis := (hstart.toMillis_le_iff hmid).2 hle
  have hends : mid.toMillis < stop.toMillis := (hmid.toMillis_lt_iff hstop).2 hlt
  constructor
  · rw [← Instant.OnScale.toMillis_lt_iff hstop hscale, hmillis]
    exact Int.not_lt.2 (Int.add_one_le_of_lt hends)
  · intro f _ _ ms _
    unfold Within
    rw [hmillis]
    exact between_split hstarts hends ms

/-! ## Reports of days -/

/-- The report of a day lists the folio with a number. -/
def ReportedOn (s : Store) (series : Series) (d : Date) (number : Nat) : Prop :=
  ∃ start stop report, Cli.dayEdge? d .start = some start ∧ Cli.dayEdge? d .stop = some stop ∧
    s.usageReport series start stop = .ok report ∧ ∃ folio ∈ report.folios, folio.number = number

/-- What was used or voided is in the report of one day. -/
theorem existsUnique_reportedOn (hs : Aligned s) (hstamped : s.Stamped)
    (hreportable : s.Reportable series) {f : FolioRow} (hf : f ∈ s.folios) (hseries : f.series = series)
    (hst : f.state.status ≠ .available) : ∃! d : Date, s.ReportedOn series d f.number := by
  obtain ⟨ms, hms⟩ := Option.ne_none_iff_exists'.1 (mt FolioState.changedAt_eq_none.1 hst)
  obtain ⟨folio, hread⟩ := FolioRow.exists_toFolio_iff.2 (hstamped f hf)
  obtain ⟨-, hnumber, -⟩ := FolioRow.toFolio_eq_ok hread
  -- The report of a day lists the folio exactly if the folio's time lies in the day.
  have hlisted : ∀ {start stop : Instant} {report : UsageReport},
      s.usageReport series start stop = .ok report →
        ((∃ folio ∈ report.folios, folio.number = f.number) ↔ Within start stop ms) := by
    intro start stop report hreport
    rw [← within_iff_of_changedAt hms, ← mem_report_iff hs hreport hf hseries hread]
    constructor
    · rintro ⟨folio', hfolio', hnumber'⟩
      obtain ⟨g, hg, hseries', -, hread'⟩ := (mem_report hreport).1 hfolio'
      obtain ⟨-, hgnumber, -⟩ := FolioRow.toFolio_eq_ok hread'
      obtain rfl := hs.eq_of_number hg hf (hseries'.trans hseries.symm)
        (hgnumber.symm.trans hnumber')
      obtain rfl := Except.ok.inj (hread'.symm.trans hread)
      exact hfolio'
    · intro hmem
      exact ⟨folio, hmem, hnumber⟩
  obtain ⟨d, ⟨start, stop, hstart, hstop, hfirst, hlast⟩, hunique⟩ :=
    Cli.existsUnique_day (hstamped f hf ms hms)
  refine ⟨d, ?_, ?_⟩
  · obtain ⟨report, hreport⟩ := (exists_report_iff hstamped).2
      ⟨Cli.not_dayEdge_lt hstart hstop, hreportable⟩
    exact ⟨start, stop, report, hstart, hstop, hreport, (hlisted hreport).2 ⟨hfirst, hlast⟩⟩
  · rintro e ⟨start', stop', report, hstart', hstop', hreport, hfolio⟩
    obtain ⟨hfirst', hlast'⟩ := (hlisted hreport).1 hfolio
    exact hunique e ⟨start', stop', hstart', hstop', hfirst', hlast'⟩

/-! ## Folios of ranges in reports -/

theorem activeRanges_add (hs : Aligned s) {report : UsageReport}
    (hreport : s.usageReport series start stop = .ok report) {u : RangeUsage}
    (hu : u ∈ report.activeRanges) : u.available + u.used + u.voided = u.last - u.first + 1 := by
  obtain ⟨-, -, hactive, -⟩ := usageReport_eq_ok hreport
  obtain ⟨r, hr, hread⟩ := exists_of_mem_mapM hactive hu
  obtain ⟨_, -, hread⟩ := bind_eq_ok.1 hread
  cases hread
  exact hs.countOf_add (mem_activeRanges.1 hr).1

theorem rangeReport_add (hs : Aligned s) {now : Instant} {nearDays : Int} {id : String}
    {report : RangeReport} (hreport : s.rangeReport now nearDays id = .ok report) :
    report.available + report.used + report.voided = report.range.last - report.range.first + 1 := by
  obtain ⟨range, hrange, hreport⟩ := bind_eq_ok.1 hreport
  cases hreport
  unfold getRange at hrange
  split at hrange
  · next r hr =>
    obtain ⟨hid, hfirst, hlast⟩ := RangeRecord.numbers_of_toRange hrange
    obtain rfl : r.id = id := by simpa using List.find?_some hr
    rw [hfirst, hlast]
    exact hs.countOf_add (List.mem_of_find?_eq_some hr)
  · cases hrange

/-- In every state of a run: the report of a period is put together from those of its two parts exactly
if the expiries of the active ranges can be read back and the period falls apart at their border, as it
does wherever all borders are on the scale of the store.  The folios of a range add up to its size in
every report.  The days of the calendar follow each other without a gap, whatever is written for them,
and what was used or voided is in the report of one day, as long as the reports are given. -/
theorem usage_reports_add_up_iff (es : List Event) (series : Series) :
    (∀ start mid next stop : Instant, start ≤ mid → mid < stop → mid.addMillis? 1 = some next →
      ((empty.run es).ReportsJoin series start mid next stop ↔
        (empty.run es).Reportable series ∧
          (empty.run es).FallsApart series start mid next stop)) ∧
    (∀ start mid stop : Instant, start.OnScale → mid.OnScale → stop.OnScale → start ≤ mid →
      mid < stop → ∃ next, mid.addMillis? 1 = some next ∧
        (empty.run es).FallsApart series start mid next stop) ∧
    (∀ start stop report, (empty.run es).usageReport series start stop = .ok report →
      ∀ u ∈ report.activeRanges, u.available + u.used + u.voided = u.last - u.first + 1) ∧
    (∀ now nearDays id report, (empty.run es).rangeReport now nearDays id = .ok report →
      report.available + report.used + report.voided =
        report.range.last - report.range.first + 1) ∧
    (∀ d : Date, d.InCalendar ↔ ∃ text, Date.read? text = some d) ∧
    (∀ d next : Date, next.toDays = d.toDays + 1 → Cli.Adjoin d next) ∧
    ∀ f ∈ (empty.run es).folios, f.series = series → f.state.status ≠ .available →
      ((∃! d : Date, (empty.run es).ReportedOn series d f.number) ↔
        (empty.run es).Reportable series) := by
  have hs := (run_coherent es).toAligned
  have hstamped := run_stamped es
  refine ⟨?_, ?_, fun _ _ _ => activeRanges_add hs, fun _ _ _ _ => rangeReport_add hs,
    fun _ => Date.inCalendar_iff_read?, fun _ _ => Cli.adjoin_of_succ, ?_⟩
  · intro start mid next stop hle hlt _
    constructor
    · intro hjoin
      exact hjoin.fallsApart hs hstamped
    · rintro ⟨hreportable, hapart⟩
      exact reportsJoin_of_fallsApart hs hstamped hreportable (Instant.not_lt_of_le_of_lt hle hlt)
        (Instant.not_lt_of_le hle) hapart
  · intro start mid stop hstart hmid hstop hle hlt
    obtain ⟨next, hnext, -⟩ := hmid.exists_next hstop hlt
    exact ⟨next, hnext, fallsApart_of_onScale hstart hmid hstop hle hlt hnext⟩
  · intro f hf hseries hst
    constructor
    · rintro ⟨d, ⟨start, stop, report, -, -, hreport, -⟩, -⟩
      exact ((exists_report_iff hstamped).1 ⟨report, hreport⟩).2
    · intro hreportable
      exact existsUnique_reportedOn hs hstamped hreportable hf hseries hst

/-- Of three folios one is used and one is voided. -/
def dealtWith : List Event :=
  [⟨earlyAt 0, .register 10 none "R1" ⟨⟨"A", "T"⟩, 1, 3, earlyAt 0, earlyAt 50, none, none⟩⟩,
   ⟨earlyAt 10, .assign ⟨false, none⟩ ⟨"A", "T"⟩ none⟩,
   ⟨earlyAt 20, .void ⟨false, none⟩ ⟨"A", "T"⟩ 2 "spoiled"⟩]

/-- A millisecond later than fifteen seconds on the dial of the first minute. -/
def afterFifteen : Instant := { earlyAt 15 with nano := 1000000, nano_lt := by decide, leap := by decide }

/-- The report of half a minute is put together from those of its quarters, and each of the two folios
is in that of one day. -/
theorem usage_reports_add_up_dealtWith :
    (empty.run dealtWith).ReportsJoin ⟨"A", "T"⟩ (earlyAt 0) (earlyAt 15) afterFifteen (earlyAt 30) ∧
    (∃! d : Date, (empty.run dealtWith).ReportedOn ⟨"A", "T"⟩ d 1) ∧
    ∃! d : Date, (empty.run dealtWith).ReportedOn ⟨"A", "T"⟩ d 2 := by
  obtain ⟨hjoin, happly, -, -, -, -, hdays⟩ := usage_reports_add_up_iff dealtWith ⟨"A", "T"⟩
  have hreportable : (empty.run dealtWith).Reportable ⟨"A", "T"⟩ := by
    intro r hr _ _
    obtain rfl := List.mem_singleton.1 hr
    exact ⟨_, rfl⟩
  obtain ⟨next, hnext, hapart⟩ := happly (earlyAt 0) (earlyAt 15) (earlyAt 30) (by decide) (by decide)
    (by decide) (by decide) (by decide)
  have hafter : (earlyAt 15).addMillis? 1 = some afterFifteen := by rfl
  obtain rfl := Option.some.inj (hnext.symm.trans hafter)
  refine ⟨(hjoin _ _ _ _ (by decide) (by decide) hafter).2 ⟨hreportable, hapart⟩, ?_, ?_⟩
  · exact (hdays ⟨⟨"A", "T"⟩, 1, "R1", .used 10000 none⟩ (by decide) rfl (by decide)).2 hreportable
  · exact (hdays ⟨⟨"A", "T"⟩, 2, "R1", .void 20000 "spoiled"⟩ (by decide) rfl (by decide)).2 hreportable

/-- The last millisecond of a leap second at the end of the first minute. -/
def firstLeap : Instant := ⟨59, 1999000000, by decide, by decide, by decide, by decide⟩

/-- The second minute begins. -/
def secondMinute : Instant :=
  { Instant.epoch with second := 60, min_le := by decide, le_max := by decide, leap := by decide }

/-- The third minute begins. -/
def thirdMinute : Instant :=
  { Instant.epoch with second := 120, min_le := by decide, le_max := by decide, leap := by decide }

/-- A folio is handed out as the second minute begins. -/
def dealtOnTheMinute : List Event :=
  [⟨earlyAt 0, .register 10 none "R1" ⟨⟨"A", "T"⟩, 1, 3, earlyAt 0, thirdMinute, none, none⟩⟩,
   ⟨secondMinute, .assign ⟨false, none⟩ ⟨"A", "T"⟩ none⟩]

/-- A range that expires in the last leap second. -/
def lastingLeap : List Event :=
  [⟨earlyAt 2, .register 10 none "R1" ⟨⟨"A", "T"⟩, 1, 5, earlyAt 0, lastLeap, none, none⟩⟩]

/-- For a series one range of which expires in the last leap second no report is given; and a folio that
is used just after a leap second is in the report that ends with it as well as in the next one. -/
theorem usage_reports_come_apart :
    (empty.run lastingLeap).usageReport ⟨"A", "T"⟩ (earlyAt 0) (earlyAt 30) =
      .error (.storage (.timeOutOfRange 8210266876800000)) ∧
    ¬ (empty.run lastingLeap).ReportsJoin ⟨"A", "T"⟩ (earlyAt 0) (earlyAt 15) afterFifteen
      (earlyAt 30) ∧
    firstLeap.addMillis? 1 = some secondMinute ∧
    ¬ (empty.run dealtOnTheMinute).ReportsJoin ⟨"A", "T"⟩ (earlyAt 0) firstLeap secondMinute
      thirdMinute := by
  have hreport : (empty.run lastingLeap).usageReport ⟨"A", "T"⟩ (earlyAt 0) (earlyAt 30) =
      .error (.storage (.timeOutOfRange 8210266876800000)) := by
    have hfolios : (empty.run lastingLeap).changedFolios ⟨"A", "T"⟩ (earlyAt 0).toMillis
        (earlyAt 30).toMillis = [] := List.mergeSort_nil
    have hranges : (empty.run lastingLeap).activeRanges ⟨"A", "T"⟩ = (empty.run lastingLeap).ranges :=
      List.mergeSort_singleton _
    have horder : ¬ earlyAt 30 < earlyAt 0 := by decide
    unfold usageReport
    rw [if_neg horder, hfolios, hranges]
    rfl
  refine ⟨hreport, ?_, by rfl, fun hjoin => ?_⟩
  · rintro ⟨whole, -, -, hwhole, -⟩
    cases hreport.symm.trans hwhole
  · have hs := (run_coherent dealtOnTheMinute).toAligned
    have hapart := (hjoin.fallsApart hs (run_stamped _)).2.once
      ⟨⟨"A", "T"⟩, 1, "R1", .used 60000 none⟩ (by decide) rfl 60000 rfl
    exact hapart.2 (by unfold Within; decide)

end Store

end FolioLedger
