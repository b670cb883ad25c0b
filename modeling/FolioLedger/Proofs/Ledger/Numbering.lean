import FolioLedger.Proofs.Ledger.Permanence

/-!
# The order of numbers

A registration adds numbers above all that were used or voided, and a folio is handed out with the
least number there is to hand out.  So whatever number is passed over belongs to a range that had
expired on the clock of that moment (`PassedOnlyLapsed`), and this stays so for the rest of a run.

Two results follow.  If clocks never step back, every available number below a used one belongs to
an expired range (`skipped_numbers_lapsed`).  Numbers are handed out in increasing order unless a
clock steps back over the expiry of a range that was passed over (`numbers_increase_iff`);
`numbers_step_back` is a run in which one does.
-/

namespace FolioLedger.Store

open Relation

variable {s t : Store} {out : Handout} {series : Series} {number : Nat}

/-! ## Where rows come from -/

theorem Permanent.origin (h : Permanent s t) (hlen : t.folios.length = s.folios.length)
    {f' : FolioRow} (hf' : f' ∈ t.folios) : ∃ f ∈ s.folios, f.Kept f' := by
  obtain ⟨i, hi⟩ := List.mem_iff_getElem?.1 hf'
  have hlt : i < s.folios.length := hlen ▸ (List.getElem?_eq_some_iff.1 hi).1
  obtain ⟨f'', hf'', hkept⟩ := h.folios i _ (List.getElem?_eq_getElem hlt)
  obtain rfl : f'' = f' := Option.some.inj (hf''.symm.trans hi)
  exact ⟨_, List.getElem_mem hlt, hkept⟩

/-- No edit puts a row at or below a number that is spent. -/
theorem Spent.origin_of_edit (hspent : s.Spent series number) (h : Aligned s) (hedit : Edit s t)
    {f' : FolioRow} (hf' : f' ∈ t.folios) (hseries : f'.series = series)
    (hle : f'.number ≤ number) : ∃ f ∈ s.folios, f.Kept f' := by
  have hperm := Permanent.edit h hedit
  cases hedit with
  | aside hsame => exact hperm.origin (by rw [hsame.folios]) hf'
  | void | bind => exact hperm.origin (by simp [setFolio]) hf'
  | expire => exact hperm.origin rfl hf'
  | warn => exact hperm.origin rfl hf'
  | register now hnew =>
    rcases List.mem_append.1 hf' with hf' | hf'
    · exact ⟨f', hf', .refl f'⟩
    · obtain ⟨n, hn, rfl⟩ := List.mem_map.1 hf'
      obtain ⟨u, hu, hus, hun, hst⟩ := hspent
      have := hnew.above_issued u hu (hus.trans hseries.symm) hst
      have := List.mem_range'_1.1 hn
      simp only at hle
      omega

theorem Spent.origin_of_edits (hspent : s.Spent series number) (h : Coherent s)
    (hedits : ReflTransGen Edit s t) {f' : FolioRow} (hf' : f' ∈ t.folios)
    (hseries : f'.series = series) (hle : f'.number ≤ number) : ∃ f ∈ s.folios, f.Kept f' := by
  induction hedits using ReflTransGen.head_induction_on with
  | refl => exact ⟨f', hf', .refl f'⟩
  | head hedit _ ih =>
    have hperm := Permanent.edit h.toAligned hedit
    obtain ⟨f₁, hf₁, hkept₁⟩ := ih (hspent.permanent hperm) (h.edit hedit)
    obtain ⟨hs, hn, -⟩ := hkept₁.identity
    obtain ⟨f, hf, hkept⟩ := hspent.origin_of_edit h.toAligned hedit hf₁ (hs ▸ hseries) (hn ▸ hle)
    exact ⟨f, hf, hkept.trans hkept₁⟩

theorem Spent.origin_of_after (hspent : s.Spent series number) (h : Coherent s) (e : Event)
    {f' : FolioRow} (hf' : f' ∈ (s.after e).folios) (hseries : f'.series = series)
    (hle : f'.number ≤ number) : ∃ f ∈ s.folios, f.Kept f' := by
  rcases e.handsOut_or_edits s with ⟨out, document, row, -, -, hout⟩ | ⟨-, hedits⟩
  · refine (Permanent.after h e).origin ?_ hf'
    rw [hout.result]
    simp [setFolio]
  · exact hspent.origin_of_edits h hedits hf' hseries hle

/-- In a run, every row at or below a spent number was there when the number was spent. -/
theorem Spent.origin (hspent : s.Spent series number) (h : Coherent s) (es : List Event)
    {f' : FolioRow} (hf' : f' ∈ (s.run es).folios) (hseries : f'.series = series)
    (hle : f'.number ≤ number) : ∃ f ∈ s.folios, f.Kept f' := by
  induction es generalizing s with
  | nil => exact ⟨f', hf', .refl f'⟩
  | cons e es ih =>
    obtain ⟨f₁, hf₁, hkept₁⟩ := ih (hspent.permanent (.after h e)) (h.after e) hf'
    obtain ⟨hs, hn, -⟩ := hkept₁.identity
    obtain ⟨f, hf, hkept⟩ := hspent.origin_of_after h e hf₁ (hs ▸ hseries) (hn ▸ hle)
    exact ⟨f, hf, hkept.trans hkept₁⟩

/-! ## What is passed over -/

/-- The numbers of the series that a handing out passed over, and that are still available, belong
to ranges that had expired. -/
def PassedOnlyLapsed (t : Store) (out : Handout) : Prop :=
  ∀ f ∈ t.folios, f.series = out.folio.series → f.number < out.folio.number →
    f.state = .available →
    ∃ r ∈ t.ranges, r.id = f.rangeId ∧
      (r.status = .expired ∨ r.expiresAt ≤ out.clock.toMillis)

/-- The least number there is to hand out passes over nothing else. -/
theorem HandsOut.passedOnlyLapsed (h : Coherent s) {document : Option String} {row : FolioRow}
    (hout : s.HandsOut out document row t) : t.PassedOnlyLapsed out := by
  intro f hf' hseries hlt hav
  obtain ⟨hrow, -⟩ := mem_assignable.1 hout.mem
  have hf : f ∈ s.folios := by
    rw [hout.result, settle_folios, mem_setFolio_of_aligned h.toAligned hrow] at hf'
    rcases hf' with ⟨hf, -⟩ | rfl
    · exact hf
    · cases hav
  -- Had its range been live, the folio itself would have been handed out.
  have hdead : ¬ s.isLive f.rangeId out.clock.toMillis := by
    intro hlive
    have := hout.least f (mem_assignable.2 ⟨hf, hseries.trans hout.series, hav, hlive⟩)
    have := hout.number
    omega
  obtain ⟨r, hr, hid, -⟩ := h.exists_range hf
  obtain ⟨r', hr', hkept⟩ := (Permanent.handsOut h.toAligned hout).exists_range hr
  obtain ⟨hid', hexpires⟩ := hkept.identity
  refine ⟨r', hr', hid'.trans hid, ?_⟩
  cases hst : r.status with
  | active =>
    right
    by_contra hlate
    exact hdead (isLive_iff.2 ⟨r, hr, hid, hst, hexpires ▸ Int.not_le.1 hlate⟩)
  | expired => exact .inl (hkept.expired hst)
  | exhausted =>
    have hstock : s.hasStock r.id = true := hasStock_iff.2 ⟨f, hf, hid.symm, hav⟩
    rw [h.spent r hr hst] at hstock
    cases hstock

/-- What was passed over stays expired, and no number comes up below it. -/
theorem PassedOnlyLapsed.run (hpassed : t.PassedOnlyLapsed out) (h : Coherent t)
    (hspent : t.Spent out.folio.series out.folio.number) (es : List Event) :
    (t.run es).PassedOnlyLapsed out := by
  intro f' hf' hseries hlt hav'
  obtain ⟨f, hf, hkept⟩ := hspent.origin h es hf' hseries (Nat.le_of_lt hlt)
  obtain ⟨hs, hn, hrange⟩ := hkept.identity
  have hav : f.state = .available := by
    by_contra hst
    exact hkept.ne_available hst hav'
  obtain ⟨r, hr, hid, hlapsed⟩ := hpassed f hf (hs ▸ hseries) (hn ▸ hlt) hav
  obtain ⟨r', hr', hkept'⟩ := (run_permanent h es).exists_range hr
  obtain ⟨hid', hexpires⟩ := hkept'.identity
  refine ⟨r', hr', by rw [hid', hid, hrange], ?_⟩
  rw [hexpires]
  exact hlapsed.imp_left hkept'.expired

theorem HandsOut.passedOnlyLapsed_run (h : Coherent s) {document : Option String} {row : FolioRow}
    (hout : s.HandsOut out document row t) (es : List Event) : (t.run es).PassedOnlyLapsed out :=
  (hout.passedOnlyLapsed h).run (h.handsOut hout) (.handsOut hout) es

/-- If a folio is handed out that was passed over before, its range had expired on the clock of that
time. -/
theorem HandsOut.expired_of_passed {document : Option String} {row : FolioRow} {later : Handout}
    (hout : s.HandsOut later document row t) (h : Coherent s) (hpassed : s.PassedOnlyLapsed out)
    (hseries : later.folio.series = out.folio.series)
    (hlt : later.folio.number < out.folio.number) :
    ∃ r ∈ s.ranges, r.id = later.folio.rangeId ∧ r.expiresAt ≤ out.clock.toMillis := by
  obtain ⟨hrow, -, hav, hlive⟩ := mem_assignable.1 hout.mem
  obtain ⟨r, hr, hid, hlapsed⟩ :=
    hpassed row hrow (hout.series ▸ hseries) (hout.number ▸ hlt) hav
  obtain ⟨q, hq, hqid, hact, -⟩ := isLive_iff.1 hlive
  obtain rfl := h.eq_of_id hq hr (hqid.trans hid.symm)
  refine ⟨q, hq, hid.trans hout.rangeId.symm, hlapsed.resolve_left ?_⟩
  rw [hact]
  nofun

/-! ## Used folios were handed out -/

/-- Every used folio was handed out. -/
def Accounted (s : Store) (outs : List Handout) : Prop :=
  ∀ f ∈ s.folios, f.state.status = .used →
    ∃ out ∈ outs, out.folio.series = f.series ∧ out.folio.number = f.number

namespace Accounted

variable {outs : List Handout}

theorem edit (hacc : s.Accounted outs) (h : Aligned s) (hedit : Edit s t) : t.Accounted outs := by
  intro f' hf' hused
  cases hedit with
  | aside hsame => exact hacc f' (hsame.folios ▸ hf') hused
  | register now hnew =>
    rcases List.mem_append.1 hf' with hf | hnew
    · exact hacc f' hf hused
    · obtain ⟨n, -, rfl⟩ := List.mem_map.1 hnew
      cases hused
  | void since reason hrow =>
    rw [settle_folios, mem_setFolio_of_aligned h hrow] at hf'
    rcases hf' with ⟨hf, -⟩ | rfl
    · exact hacc f' hf hused
    · cases hused
  | bind document hrow hst =>
    rw [mem_setFolio_of_aligned h hrow] at hf'
    rcases hf' with ⟨hf, -⟩ | rfl
    · exact hacc f' hf hused
    · -- The row that is bound was used before.
      obtain ⟨out, hmem, hkey⟩ := hacc _ hrow (by rw [hst]; rfl)
      exact ⟨out, hmem, hkey⟩
  | expire => exact hacc f' hf' hused
  | warn => exact hacc f' hf' hused

theorem edits (hacc : s.Accounted outs) (h : Coherent s) (hedits : ReflTransGen Edit s t) :
    t.Accounted outs := by
  induction hedits with
  | refl => exact hacc
  | tail hedits hedit ih => exact ih.edit (h.edits hedits).toAligned hedit

theorem handsOut (hacc : s.Accounted outs) (h : Aligned s) {document : Option String}
    {row : FolioRow} (hout : s.HandsOut out document row t) : t.Accounted (outs ++ [out]) := by
  intro f' hf' hused
  rw [hout.result, settle_folios, mem_setFolio_of_aligned h (mem_assignable.1 hout.mem).1] at hf'
  rcases hf' with ⟨hf, -⟩ | rfl
  · obtain ⟨earlier, hmem, hkey⟩ := hacc f' hf hused
    exact ⟨earlier, List.mem_append_left _ hmem, hkey⟩
  · exact ⟨out, by simp, hout.series, hout.number⟩

theorem run (es : List Event) :
    (Store.empty.run es).Accounted (Store.empty.handouts es) := by
  have hrun : Coherent (Store.empty.run es) ∧
      (Store.empty.run es).Accounted (Store.empty.handouts es) := by
    refine run_induction (P := fun t outs => Coherent t ∧ t.Accounted outs) es ?_ ?_
    · exact ⟨.empty, by simp [Accounted]⟩
    · intro t outs e _ ⟨h, hacc⟩
      refine ⟨h.after e, ?_⟩
      rcases e.handsOut_or_edits t with ⟨out, document, row, hsome, -, hout⟩ | ⟨hnone, hedits⟩
      · rw [hsome]
        exact hacc.handsOut h.toAligned hout
      · rw [hnone, Option.toList_none, List.append_nil]
        exact hacc.edits h hedits
  exact hrun.2

end Accounted

/-! ## No number is skipped while it can be used -/

/-- If no clock of a run read more than the present one, an available number below a used one
belongs to an expired range. -/
theorem lapsed_of_lt_used {es : List Event} {now : Instant}
    (hclock : ∀ e ∈ es, e.clock.toMillis ≤ now.toMillis) {f u : FolioRow}
    (hf : f ∈ (Store.empty.run es).folios) (hu : u ∈ (Store.empty.run es).folios)
    (hav : f.state.status = .available) (hused : u.state.status = .used)
    (hseries : f.series = u.series) (hlt : f.number < u.number) :
    ∃ r ∈ (Store.empty.run es).ranges, r.id = f.rangeId ∧
      (r.status = .expired ∨ r.expiresAt ≤ now.toMillis) := by
  obtain ⟨out, hout, hs, hn⟩ := Accounted.run es u hu hused
  obtain ⟨es₁, e, es₂, document, row, rfl, hnow, hhand⟩ := exists_handsOut_of_mem hout
  have h := run_coherent es₁
  have hpassed := hhand.passedOnlyLapsed_run h es₂
  rw [← run_cons, ← run_append] at hpassed
  obtain ⟨r, hr, hid, hlapsed⟩ := hpassed f hf (hseries.trans hs.symm) (hn ▸ hlt)
    (FolioState.status_eq_available.1 hav)
  have hle : out.clock.toMillis ≤ now.toMillis := hnow ▸ hclock e (by simp)
  exact ⟨r, hr, hid, hlapsed.imp_right fun hexp => Int.le_trans hexp hle⟩

/-- In a run whose clock readings never decrease, up to the present one, every available number
below a used one belongs to an expired range. -/
theorem skipped_numbers_lapsed (es : List Event) (now : Instant)
    (hclock : (es.map (·.clock.toMillis) ++ [now.toMillis]).Pairwise (· ≤ ·)) :
    ∀ f ∈ (Store.empty.run es).folios, ∀ u ∈ (Store.empty.run es).folios,
      f.state.status = .available → u.state.status = .used → f.series = u.series →
      f.number < u.number →
      ∃ r ∈ (Store.empty.run es).ranges, r.id = f.rangeId ∧
        (r.status = .expired ∨ r.expiresAt ≤ now.toMillis) := by
  intro f hf u hu
  have hle : ∀ e ∈ es, e.clock.toMillis ≤ now.toMillis := by
    intro e he
    exact (List.pairwise_append.1 hclock).2.2 _ (List.mem_map_of_mem he) _ (by simp)
  exact lapsed_of_lt_used hle hf hu

/-- A second of the first minute of 1970. -/
def early (second : Fin 60) : Instant where
  second := second.val
  nano := 0
  min_le := by unfold Instant.minSecond; omega
  le_max := by unfold Instant.maxSecond; omega
  nano_lt := Instant.epoch.nano_lt
  leap := by omega

/-- The second that a count of seconds reaches on the dial of the first minute. -/
def earlyAt (seconds : Nat) : Instant :=
  early (Fin.ofNat 60 seconds)

/-- In a leap second after which the calendar ends. -/
def lastLeap : Instant := ⟨8210266876799, 1000000000, by decide, by decide, by decide, by decide⟩

/-- Two ranges of one series, the lower of which expires first, and a folio that is handed out in
between. -/
def passingOver : List Event :=
  [⟨early 0, .register 10 none "low" ⟨⟨"A", "T"⟩, 1, 10, early 0, early 10, none, none⟩⟩,
   ⟨early 0, .register 10 none "high" ⟨⟨"A", "T"⟩, 11, 20, early 0, early 50, none, none⟩⟩,
   ⟨early 20, .assign ⟨false, none⟩ ⟨"A", "T"⟩ none⟩]

/-- Number 11 is used, and 1 to 10 are not: their range has expired. -/
theorem skipped_numbers_lapsed_passingOver :
    ∃ r ∈ (Store.empty.run passingOver).ranges, r.id = "low" ∧
      (r.status = .expired ∨ r.expiresAt ≤ (early 20).toMillis) :=
  skipped_numbers_lapsed passingOver (early 20) (by decide)
    ⟨⟨"A", "T"⟩, 1, "low", .available⟩ (by decide)
    ⟨⟨"A", "T"⟩, 11, "high", .used 20000 none⟩ (by decide) rfl rfl rfl (by decide)

/-! ## Numbers increase unless a clock steps back -/

/-- Of two folios of one series the later has the greater number. -/
def Increasing (outs : List Handout) : Prop :=
  outs.Pairwise fun x y => x.folio.series = y.folio.series → x.folio.number < y.folio.number

instance : DecidablePred Increasing := fun outs => inferInstanceAs (Decidable (outs.Pairwise _))

/-- Of two folios of one series, `y` is from a range below that of `x`, and the expiry of this range
had come on the clock that `x` was handed out by, but not on that of `y`. -/
def OutOfTurn (s : Store) (x y : Handout) : Prop :=
  x.folio.series = y.folio.series ∧
    ∃ q ∈ s.ranges, ∃ r ∈ s.ranges, q.id = x.folio.rangeId ∧ r.id = y.folio.rangeId ∧
      r.last < q.first ∧ r.expiresAt ≤ x.clock.toMillis ∧ y.clock.toMillis < r.expiresAt

/-- A folio that was handed out has a number of its range, whose expiry had not come. -/
theorem exists_range_of_handout (h : Coherent s) {es : List Event} (hout : out ∈ s.handouts es) :
    ∃ r ∈ (s.run es).ranges, r.id = out.folio.rangeId ∧ r.series = out.folio.series ∧
      r.first ≤ out.folio.number ∧ out.folio.number ≤ r.last ∧
      out.clock.toMillis < r.expiresAt := by
  obtain ⟨es₁, e, es₂, document, row, rfl, -, hhand⟩ := exists_handsOut_of_mem hout
  have hthen := h.run es₁
  obtain ⟨hrow, -, -, hlive⟩ := mem_assignable.1 hhand.mem
  obtain ⟨r, hr, hid, -, hbefore⟩ := isLive_iff.1 hlive
  obtain ⟨hseries, hfirst, hlast⟩ := hthen.of_rangeId hrow hr hid.symm
  obtain ⟨r', hr', hkept⟩ := (run_permanent_append h es₁ (e :: es₂)).exists_range hr
  refine ⟨r', hr', ?_⟩
  rw [hkept.rest, hhand.rangeId, hhand.series, hhand.number]
  exact ⟨hid, hseries.symm, hfirst, hlast, hbefore⟩

theorem OutOfTurn.lt (h : Coherent s) {es : List Event} {x y : Handout} (hx : x ∈ s.handouts es)
    (hy : y ∈ s.handouts es) (hturn : OutOfTurn (s.run es) x y) :
    y.folio.number < x.folio.number := by
  obtain ⟨-, q, hq, r, hr, hqid, hrid, hbelow, -⟩ := hturn
  have hend := (h.run es).toAligned
  obtain ⟨q', hq', hqid', -, hfirst, -⟩ := exists_range_of_handout h hx
  obtain ⟨r', hr', hrid', -, -, hlast, -⟩ := exists_range_of_handout h hy
  obtain rfl := hend.eq_of_id hq hq' (hqid.trans hqid'.symm)
  obtain rfl := hend.eq_of_id hr hr' (hrid.trans hrid'.symm)
  omega

section

variable {e : Event} {es : List Event} {later : Handout} (h : Coherent s)
  (hout : s.handout? e = some out) (hlater : later ∈ (s.after e).handouts es)
  (hseries : out.folio.series = later.folio.series)

include h hout hlater hseries

/-- The range of a lesser number that is handed out later had expired on the earlier clock. -/
theorem expired_of_handout_lt (hlt : later.folio.number < out.folio.number) :
    ∀ r ∈ (s.run (e :: es)).ranges, r.id = later.folio.rangeId →
      r.expiresAt ≤ out.clock.toMillis := by
  obtain ⟨-, document, row, hhand⟩ := Event.handsOut_of_handout? hout
  obtain ⟨es₁, e', es₂, document', row', rfl, -, hhand'⟩ := exists_handsOut_of_mem hlater
  have hthen := (h.after e).run es₁
  have hpassed := hhand.passedOnlyLapsed_run h es₁
  obtain ⟨r, hr, hid, hexpired⟩ := hhand'.expired_of_passed hthen hpassed hseries.symm hlt
  obtain ⟨r', hr', hkept⟩ :=
    (run_permanent_append (h.after e) es₁ (e' :: es₂)).exists_range hr
  obtain ⟨hid', hexpires⟩ := hkept.identity
  intro r'' hr'' hid''
  obtain rfl := (h.run _).eq_of_id hr'' hr' (by rw [hid'', hid', hid])
  rw [hexpires]
  exact hexpired

/-- What is handed out later has a greater number or is out of turn. -/
theorem lt_or_outOfTurn :
    out.folio.number < later.folio.number ∨ OutOfTurn (s.run (e :: es)) out later := by
  obtain ⟨-, document, row, hhand⟩ := Event.handsOut_of_handout? hout
  have hne : later.folio.number ≠ out.folio.number := fun heq =>
    (Spent.handsOut hhand).not_mem_handouts (h.after e) es later hlater ⟨hseries.symm, heq⟩
  by_cases hlt : out.folio.number < later.folio.number
  · exact .inl hlt
  have hless : later.folio.number < out.folio.number := by omega
  have hend := (h.run (e :: es)).toAligned
  have hx : out ∈ s.handouts (e :: es) := by simp [handouts, hout]
  have hy : later ∈ s.handouts (e :: es) := List.mem_append_right _ hlater
  obtain ⟨q, hq, hqid, hqs, hqfirst, hqlast, hqlive⟩ := exists_range_of_handout h hx
  obtain ⟨r, hr, hrid, hrs, hrfirst, hrlast, hrlive⟩ := exists_range_of_handout h hy
  have hexpired := expired_of_handout_lt h hout hlater hseries hless r hr hrid
  have hid : r.id ≠ q.id := by
    intro hid
    obtain rfl := hend.eq_of_id hr hq hid
    exact Int.not_le.2 hqlive hexpired
  have hapart := hend.apart hr hq (by rw [hrs, hqs, hseries]) hid
  exact .inr ⟨hseries, q, hq, r, hr, hqid, hrid, by omega, hexpired, hrlive⟩

end

theorem pairwise_lt_or_outOfTurn (h : Coherent s) (es : List Event) :
    (s.handouts es).Pairwise fun x y => x.folio.series = y.folio.series →
      x.folio.number < y.folio.number ∨ OutOfTurn (s.run es) x y := by
  induction es generalizing s with
  | nil => exact .nil
  | cons e es ih =>
    cases hout : s.handout? e with
    | none => simpa [handouts, hout] using ih (h.after e)
    | some out =>
      simp only [handouts, hout, Option.toList_some, List.singleton_append, List.pairwise_cons]
      exact ⟨fun later hlater => lt_or_outOfTurn h hout hlater, ih (h.after e)⟩

theorem increasing_of_inTurn {es : List Event}
    (hturns : (Store.empty.handouts es).Pairwise fun x y => ¬ OutOfTurn (Store.empty.run es) x y) :
    Increasing (Store.empty.handouts es) := by
  refine ((pairwise_lt_or_outOfTurn .empty es).and hturns).imp fun {x y} hxy hseries => ?_
  exact (hxy.1 hseries).resolve_right hxy.2

/-- Numbers increase as long as no caller's clock reads less than an earlier one's. -/
theorem increasing_of_clocks {es : List Event}
    (hclock : (Store.empty.handouts es).Pairwise fun x y => x.clock.toMillis ≤ y.clock.toMillis) :
    Increasing (Store.empty.handouts es) := by
  refine increasing_of_inTurn (hclock.imp fun {x y} hle hturn => ?_)
  obtain ⟨-, q, -, r, -, -, -, -, hexpired, hbefore⟩ := hturn
  exact Int.not_le.2 hbefore (Int.le_trans hexpired hle)

/-- In a run from the empty store numbers increase if and only if no folio is handed out of turn. -/
theorem numbers_increase_iff (es : List Event) :
    Increasing (Store.empty.handouts es) ↔
      (Store.empty.handouts es).Pairwise fun x y => ¬ OutOfTurn (Store.empty.run es) x y := by
  refine ⟨fun hinc => ?_, increasing_of_inTurn⟩
  refine hinc.imp_of_mem fun {x y} hx hy hlt hturn => ?_
  have := hlt hturn.1
  have := hturn.lt .empty hx hy
  omega

/-- After number 11 was handed out, a clock that has stepped back gets number 1. -/
theorem numbers_step_back :
    ¬ Increasing (Store.empty.handouts
      (passingOver ++ [⟨early 5, .assign ⟨false, none⟩ ⟨"A", "T"⟩ none⟩])) := by
  decide

end FolioLedger.Store
