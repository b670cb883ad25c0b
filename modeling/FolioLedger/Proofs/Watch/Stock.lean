import FolioLedger.Proofs.Ledger.Numbering
import FolioLedger.Proofs.Replenish.Recording
import FolioLedger.Proofs.Watch.Sweep
import Mathlib.Data.List.Perm.Subperm

/-!
# The stock of a series only shrinks

Without a registration in its series no folio can be handed out later that could not be handed out
before, whatever else happens: rows become no more available than they were, and time passes
(`Store.countAvailable_run_le`).  A sweep asks for a range with a threshold that is at least the present
stock, and the stock is compared with it when the trigger is worked off.  So unless a range of the series
came meanwhile, a trigger of a sweep is never told that there is enough (`Watch.trigger_not_above`).
-/

namespace FolioLedger

open Store

/-! ## Folios have an origin -/

theorem Store.Aligned.length_folios {s t : Store} (hs : Aligned s) (ht : Aligned t)
    (hdeeds : t.deeds = s.deeds) : t.folios.length = s.folios.length := by
  have hkeys : ∀ {u : Store}, Aligned u →
      u.folios.length = (u.deeds.flatMap RangeRecord.keys).length := by
    intro u hu
    rw [← List.length_map FolioRow.key, hu.keys, deeds, List.flatMap_map]
    rfl
  rw [hkeys hs, hkeys ht, hdeeds]

/-- Every folio of a series that gets no range was there before. -/
theorem Event.exists_origin {s : Store} (h : Coherent s) {e : Event} {series : Series}
    (hnew : ∀ new ∈ e.call.registered, new.series ≠ series) {f' : FolioRow}
    (hf' : f' ∈ (s.after e).folios) (hseries : f'.series = series) :
    ∃ f ∈ s.folios, f.Kept f' := by
  rcases e.deeds s with hdeeds | ⟨id, new, hmem, hregisters⟩
  · exact (Permanent.after h e).origin
      (h.toAligned.length_folios (h.after e).toAligned hdeeds) hf'
  · rw [hregisters.folios] at hf'
    rcases List.mem_append.1 hf' with hf | hadded
    · exact ⟨f', hf, .refl f'⟩
    · obtain ⟨n, -, rfl⟩ := List.mem_map.1 hadded
      exact absurd hseries (hnew new hmem)

namespace Store

variable {s : Store} {series : Series}

/-! ## What can be handed out -/

/-- What can be handed out after an event could be handed out before. -/
theorem exists_assignable (h : Coherent s) {e : Event}
    (hnew : ∀ new ∈ e.call.registered, new.series ≠ series) {now later : Millis}
    (hle : now ≤ later) {f' : FolioRow} (hf' : f' ∈ (s.after e).assignable series later) :
    ∃ f ∈ s.assignable series now, f.number = f'.number := by
  obtain ⟨hmem, hseries, hav, hlive⟩ := mem_assignable.1 hf'
  obtain ⟨f, hf, hkept⟩ := e.exists_origin h hnew hmem hseries
  obtain ⟨hs, hn, hid⟩ := hkept.identity
  have hav' : f.state = .available := by
    by_contra hst
    exact hkept.ne_available hst hav
  -- The range of the folio was live at the earlier time too.
  obtain ⟨r, hr, hrid, -⟩ := h.exists_range hf
  obtain ⟨r', hr', hkept'⟩ := (Permanent.after h e).exists_range hr
  obtain ⟨q, hq, hqid, hact, hexpires⟩ := isLive_iff.1 hlive
  obtain ⟨hid', hsame⟩ := hkept'.identity
  obtain rfl := (h.after e).eq_of_id hr' hq (by rw [hid', hrid, hqid, hid])
  have hactive : r.status = .active := by
    rcases hkept'.status with hst | hst
    · exact hst ▸ hact
    · exact hst
  refine ⟨f, mem_assignable.2 ⟨hf, hs ▸ hseries, hav',
    isLive_iff.2 ⟨r, hr, hrid, hactive, ?_⟩⟩, hn.symm⟩
  rw [← hsame]
  exact Int.lt_of_le_of_lt hle hexpires

theorem countAvailable_after_le (h : Coherent s) {e : Event}
    (hnew : ∀ new ∈ e.call.registered, new.series ≠ series) {now later : Millis}
    (hle : now ≤ later) :
    (s.after e).countAvailable series later ≤ s.countAvailable series now := by
  have hsubset : ((s.after e).assignable series later).map (·.number) ⊆
      (s.assignable series now).map (·.number) := by
    intro n hn
    obtain ⟨f', hf', rfl⟩ := List.mem_map.1 hn
    obtain ⟨f, hf, hnumber⟩ := exists_assignable h hnew hle hf'
    exact List.mem_map.2 ⟨f, hf, hnumber⟩
  have hnodup := nodup_assignable (h.after e).toAligned series later
  have hlength := (List.subperm_of_subset hnodup hsubset).length_le
  rwa [List.length_map, List.length_map] at hlength

/-- As time passes ranges lapse. -/
theorem countAvailable_anti (s : Store) (series : Series) {now later : Millis} (hle : now ≤ later) :
    s.countAvailable series later ≤ s.countAvailable series now := by
  refine (List.monotone_filter_right _ fun f hf => ?_).length_le
  simp only [decide_eq_true_eq, isLive_iff] at hf ⊢
  obtain ⟨hav, r, hr, hid, hact, hexpires⟩ := hf
  exact ⟨hav, r, hr, hid, hact, Int.lt_of_le_of_lt hle hexpires⟩

/-- Over a run without a registration in it, and later, the stock of a series is no greater. -/
theorem countAvailable_run_le (h : Coherent s) {es : List Event}
    (hnew : ∀ e ∈ es, ∀ new ∈ e.call.registered, new.series ≠ series) {now later : Millis}
    (hle : now ≤ later) : (s.run es).countAvailable series later ≤ s.countAvailable series now := by
  induction es generalizing s with
  | nil => exact s.countAvailable_anti series hle
  | cons e es ih =>
    have hrest := ih (h.after e) fun e' he' => hnew e' (List.mem_cons_of_mem _ he')
    have hfirst := countAvailable_after_le h (hnew e List.mem_cons_self) (Int.le_refl now)
    exact Nat.le_trans hrest hfirst

end Store

/-! ## Triggers of sweeps -/

/-- A trigger of a sweep has at least the present stock as its threshold. -/
theorem Watch.countAvailable_le_threshold {w : Watch} {s : Store} {now : Instant} {t : Trigger}
    (h : t ∈ (w.sweep s now).2.2.triggers) :
    (w.sweep s now).2.1.countAvailable t.series now.toMillis ≤ t.threshold := by
  rcases w.completes_or_halts s now with ⟨report, u, active, hsweep⟩ | ⟨halt, -, hnone⟩
  · rcases triggers_eq_ok hsweep.triggers with ⟨-, hnone⟩ | ⟨lowWater, cutoff, -, -, hsome⟩
    · rw [hnone] at h
      cases h
    · rw [hsome] at h
      obtain ⟨series, -, ht⟩ := List.mem_filterMap.1 h
      unfold proactive at ht
      split at ht
      · cases ht
        exact Nat.le_max_left ..
      · cases ht
  · rw [hnone] at h
    cases h

theorem Store.SameLedger.countAvailable {s t : Store} (h : SameLedger s t) (series : Series)
    (now : Millis) : t.countAvailable series now = s.countAvailable series now := by
  unfold Store.countAvailable assignable foliosOf isLive
  rw [h.ranges, h.folios]

namespace Monitor

variable {m : Monitor} {s : Store} {now later : Instant} {series : Series} {threshold : Nat}

theorem prepareLocked_ne_above (h : s.countAvailable series later.toMillis ≤ threshold) (lease : Lease)
    (remaining : Nat) :
    m.prepareLocked s later series threshold lease ≠ .ok (.inl (.aboveThreshold remaining)) := by
  intro hlocked
  unfold prepareLocked at hlocked
  obtain ⟨pending, -, hlocked⟩ := bind_eq_ok.1 hlocked
  cases pending with
  | some request => cases hlocked
  | none =>
    simp only [if_neg (Nat.not_lt.2 h)] at hlocked
    obtain ⟨request, -, hlocked⟩ := bind_eq_ok.1 hlocked
    cases hlocked

theorem prepare_ne_above (now : Instant) (h : s.countAvailable series later.toMillis ≤ threshold)
    (token : String) (remaining : Nat) :
    (m.prepare s now later token series threshold).1 ≠ .done (.ok (.aboveThreshold remaining)) := by
  intro hdone
  have hsame := s.acquire_sameLedger now m.lockTtl token (Lock.replenishment series)
  unfold prepare at hdone
  split at hdone
  · cases hdone
  · cases hdone
  · next lease t hacquire =>
    rw [hacquire] at hsame
    have hne := prepareLocked_ne_above (m := m)
      (Nat.le_trans (Nat.le_of_eq (hsame.countAvailable series later.toMillis)) h) lease
    split at hdone
    · cases hdone
    · next hlocked => exact hne _ hlocked
    · next outcome hother hlocked =>
      cases hdone
      exact hother _ rfl
    · cases hdone

theorem record_ne_above (s : Store) (draft : Draft) (answer : Except Failure String)
    (remaining : Nat) : (Monitor.record s draft answer).1 ≠ .ok (.aboveThreshold remaining) := by
  unfold Monitor.record
  split
  · nofun
  · simp only
    split <;> nofun

end Monitor

/-- A trigger on a stock at or below its threshold is not told that there is enough. -/
theorem Workshop.trigger_ne_above {m : Type → Type} [Monad m] [LawfulMonad m] (w : Workshop)
    {world : World m} {s : Store} {series : Series} {threshold : Nat}
    (h : Always (fun now => s.countAvailable series now.toMillis ≤ threshold) world.now) :
    Always (fun out => ∀ remaining, out.1 ≠ .ok (.aboveThreshold remaining))
      (w.trigger world s series threshold) := by
  unfold trigger
  refine .any_bind fun now => h.bind fun later hlow => .any_bind fun token => ?_
  have hne := w.monitor.prepare_ne_above now hlow token
  split
  · next outcome t hprepare =>
    refine .pure fun remaining houtcome => hne remaining ?_
    rw [hprepare, ← houtcome]
  · exact .any_bind fun answer => .pure fun remaining => Monitor.record_ne_above _ _ _ remaining

/-- A trigger of a sweep is not told that there is enough, whenever it is worked off by a clock that has
not gone back, unless a range of its series was registered since. -/
theorem Watch.trigger_not_above {m : Type → Type} [Monad m] [LawfulMonad m] (es : List Event)
    (watch : Watch) (now : Instant) {t : Trigger}
    (ht : t ∈ (watch.sweep (Store.empty.run es) now).2.2.triggers) (fs : List Event)
    (hfs : ∀ e ∈ fs, ∀ new ∈ e.call.registered, new.series ≠ t.series) (w : Workshop)
    (world : World m) (hclock : Always (fun later => now.toMillis ≤ later.toMillis) world.now) :
    Always (fun out => ∀ remaining, out.1 ≠ .ok (.aboveThreshold remaining))
      (w.trigger world ((watch.sweep (Store.empty.run es) now).2.1.run fs) t.series t.threshold) := by
  have hswept : Coherent (watch.sweep (Store.empty.run es) now).2.1 :=
    (run_coherent es).after ⟨now, .sweep watch now⟩
  refine w.trigger_ne_above (hclock.imp fun later hle => ?_)
  exact Nat.le_trans (countAvailable_run_le hswept hfs hle) (countAvailable_le_threshold ht)

/-- One range, which is near expiry throughout. -/
def nearlySpent : List Event :=
  [⟨earlyAt 0, .register 10 none "low" ⟨⟨"A", "T"⟩, 1, 5, earlyAt 0, earlyAt 50, none, none⟩⟩]

/-- The stock of 5 is above the low water mark of 1, and yet the trigger leads to a request, also after
a folio was handed out. -/
theorem Watch.trigger_not_above_nearlySpent :
    let watch : Watch := ⟨1, some 1⟩
    let swept := (watch.sweep (Store.empty.run nearlySpent) (earlyAt 1)).2
    let handedOut := swept.1.run [⟨earlyAt 2, .assign ⟨true, none⟩ ⟨"A", "T"⟩ none⟩]
    let answer := Workshop.trigger ⟨⟨5, 10, 20000, 60⟩, ⟨[], 6⟩, none⟩ takingAll handedOut ⟨"A", "T"⟩ 5
    swept.2.triggers = [⟨⟨"A", "T"⟩, 5⟩] ∧
      Always (fun out => ∀ remaining, out.1 ≠ .ok (.aboveThreshold remaining)) answer ∧
      ∃ request lease, answer.1 = .ok (.submitted request lease) :=
  ⟨by decide +kernel,
    Watch.trigger_not_above nearlySpent ⟨1, some 1⟩ (earlyAt 1) (t := ⟨⟨"A", "T"⟩, 5⟩)
      (by decide +kernel) [⟨earlyAt 2, .assign ⟨true, none⟩ ⟨"A", "T"⟩ none⟩]
      (by simp [Call.registered]) ⟨⟨5, 10, 20000, 60⟩, ⟨[], 6⟩, none⟩ takingAll
      (.pure (by decide)),
    ⟨⟨"trk-1", ⟨"A", "T"⟩, 6, 10, .pending, none, none, earlyAt 2, none⟩,
      ⟨"replenish:A:T", "token", 1, earlyAt 22⟩, by decide +kernel⟩⟩

end FolioLedger
