import FolioLedger.Proofs.Ledger.Admission
import FolioLedger.Proofs.Ledger.Usage
import FolioLedger.Proofs.Time.Validity

/-!
# Stored times and the times that were given

The store compares milliseconds, and a range is classified by instants in full.  The two agree outside of
leap seconds: a range that is not due by its milliseconds has not expired (`Store.Current`), so that a sweep
that goes through leaves no expired range active, and every available folio of an active range counts as
stock.  A sweep goes through if the ranges that are due can be read back, and those of a run can unless one
was registered or warned about in the leap second at the end of the calendar (`Store.Timed`).
A range is given back as it was registered, with its times in whole milliseconds, unless one of them lies in
a leap second.
-/

namespace FolioLedger

open Store

/-- The range with its times in whole milliseconds. -/
def Range.floor (r : Range) : Range :=
  { r with
    authorizedAt := r.authorizedAt.floor
    expiresAt := r.expiresAt.floor
    registeredAt := r.registeredAt.floor
    nearExpiryAlertedAt := r.nearExpiryAlertedAt.map Instant.floor }

/-- The instant at which the call warns about ranges. -/
def Call.warnsAt? : Call → Option Instant
  | .markNearExpiry _ moment | .sweep _ moment => some moment
  | _ => none

/-- What the store keeps of the event's times can be read back. -/
structure Event.Dated (e : Event) : Prop where
  clock : e.clock.Readable
  moment : ∀ t ∈ e.call.warnsAt?, t.Readable

namespace Store

variable {s t : Store} {now : Instant}

/-! ## Active ranges that last -/

/-- No active range has expired at the instant, and all available folios of active ranges are counted. -/
structure Current (s : Store) (now : Instant) : Prop where
  unexpired : ∀ r ∈ s.ranges, r.status = .active → ∀ e, Instant.ofMillis r.expiresAt = .ok e →
    ∀ nearDays, (classifyValidity e now nearDays).1 ≠ .expired
  counted : ∀ series, s.countAvailable series now.toMillis = ((s.foliosOf series).filter fun f =>
    f.isAvailable ∧ s.ranges.any fun r => r.id = f.rangeId ∧ r.status = .active).length

theorem Current.of_not_due (h : ∀ r ∈ s.ranges, ¬ isDue r now.toMillis) : s.Current now := by
  have hlater : ∀ r ∈ s.ranges, r.status = .active → now.toMillis < r.expiresAt :=
    fun r hr hactive => Int.not_le.1 fun hle => h r hr (isDue_iff.2 ⟨hactive, hle⟩)
  constructor
  · intro r hr hactive e he nearDays hexpired
    exact Instant.not_le_of_toMillis_lt he (hlater r hr hactive)
      (classifyValidity_eq_expired_iff.1 hexpired)
  · intro series
    have hlive : ∀ id, s.isLive id now.toMillis =
        s.ranges.any fun r => r.id = id ∧ r.status = .active := by
      intro id
      rw [Bool.eq_iff_iff, isLive_iff, List.any_eq_true]
      refine exists_congr fun r => and_congr_right fun hr => ?_
      rw [decide_eq_true_eq, ← and_assoc]
      exact and_iff_left_of_imp fun hactive => hlater r hr hactive.2
    unfold countAvailable assignable
    simp only [hlive]

/-! ## Sweeps -/

/-- A sweep that goes through leaves what lasts. -/
theorem Current.of_expire {expired : List Range} (h : s.expire now = .ok (expired, t)) : t.Current now := by
  rw [expire_eq] at h
  obtain ⟨_, -, h⟩ := bind_eq_ok.1 h
  cases h
  refine .of_not_due fun r hr hdue => ?_
  obtain ⟨q, hq, rfl⟩ := mem_setStatus.1 hr
  split at hdue
  · cases (isDue_iff.1 hdue).1
  · next hnot => exact hnot hdue

theorem exists_expire_of_legible (h : ∀ r ∈ s.ranges, isDue r now.toMillis → r.Legible) :
    ∃ expired t, s.expire now = .ok (expired, t) := by
  have hread : ∃ expired, (s.expiring now.toMillis).mapM RangeRecord.toRange = .ok expired := by
    rw [exists_mapM_iff]
    intro r hr
    obtain ⟨q, hq, rfl⟩ := List.mem_map.1 hr
    obtain ⟨hq, hdue⟩ := List.mem_filter.1 hq
    exact (h q hq hdue).withStatus .expired
  obtain ⟨expired, hexpired⟩ := hread
  rw [expire_eq, hexpired]
  exact ⟨expired, _, rfl⟩

/-! ## Ranges that can be read back -/

theorem register_lasts {limit : Nat} {faulty : Option Nat} {id : String} {new : NewRange} {range : Range}
    (h : s.register limit faulty id now new = .ok (range, t)) :
    new.authorizedAt.toMillis < new.expiresAt.toMillis := by
  obtain ⟨hcheck, hlast⟩ := register_checked h
  rw [register_eq_of_check hcheck hlast] at h
  obtain ⟨_, -, h⟩ := bind_eq_ok.1 h
  obtain ⟨_, hrows, -⟩ := bind_eq_ok.1 h
  exact (checkRows_eq_ok_iff.1 hrows).1

/-- A range of a run was registered with times of instants, of which the second is the later one. -/
theorem exists_registered {es : List Event} {r : RangeRow} (hr : r ∈ (empty.run es).ranges) :
    ∃ e ∈ es, ∃ id, ∃ new : NewRange, r.deed = new.toRow id e.clock ∧
      new.authorizedAt.toMillis < new.expiresAt.toMillis := by
  induction es using List.reverseRecOn generalizing r with
  | nil => cases hr
  | append_singleton es e ih =>
    rw [run_append] at hr
    rcases e.range_origin (empty.run es) hr with ⟨q, hq, hdeed⟩ | ⟨id, new, hnew, hregisters, rfl⟩
    · obtain ⟨e', he', id, new, hrow, hlasts⟩ := ih hq
      exact ⟨e', List.mem_append_left _ he', id, new, hdeed ▸ hrow, hlasts⟩
    · obtain ⟨_, -, faulty, id', range, hregister⟩ := exists_register_of_registers hnew hregisters
      exact ⟨e, by simp, id, new, rfl, register_lasts hregister⟩

/-- The times at which the ranges were registered and warned about can be read back. -/
def Timed (s : Store) : Prop :=
  ∀ r ∈ s.ranges, (∃ t, Instant.ofMillis r.registeredAt = .ok t) ∧
    ∀ ms ∈ r.nearExpiryAlertedAt, ∃ t, Instant.ofMillis ms = .ok t

namespace Timed

theorem empty : Store.empty.Timed := nofun

theorem of_ranges (h : s.Timed) (hranges : t.ranges = s.ranges) : t.Timed := by
  unfold Timed at h ⊢
  rw [hranges]
  exact h

theorem setStatus (h : s.Timed) (p : RangeRow → Bool) (status : RangeStatus) :
    (s.setStatus p status).Timed := by
  intro r hr
  obtain ⟨q, hq, rfl⟩ := mem_setStatus.1 hr
  have hq := h q hq
  split <;> exact hq

theorem setFolio (h : s.Timed) (series : Series) (number : Nat) (state : FolioState) :
    (s.setFolio series number state).Timed := h

theorem settle (h : s.Timed) (id : String) : (s.settle id).Timed := by
  rw [settle_eq]
  exact h.setStatus _ _

theorem expire (h : s.Timed) {expired : List Range} (hexpire : s.expire now = .ok (expired, t)) :
    t.Timed := by
  rw [expire_eq] at hexpire
  obtain ⟨_, -, hexpire⟩ := bind_eq_ok.1 hexpire
  cases hexpire
  exact h.setStatus _ _

theorem markNearExpiry (h : s.Timed) (id : String) (hnow : now.Readable) :
    (s.markNearExpiry id now).2.Timed := by
  intro r hr
  obtain ⟨q, hq, rfl⟩ := List.mem_map.1 hr
  have hq := h q hq
  split
  · exact ⟨hq.1, by rintro ms ⟨rfl⟩; exact hnow⟩
  · exact hq

theorem sweep (h : s.Timed) (w : Watch) (hnow : now.Readable) : (w.sweep s now).2.1.Timed := by
  have hmoves := w.sweep_moves s now
  generalize (w.sweep s now).2.1 = t at hmoves ⊢
  induction hmoves with
  | refl => exact h
  | tail _ hmove ih =>
    cases hmove with
    | expire hexpire => exact ih.expire hexpire
    | mark id => exact ih.markNearExpiry id hnow

theorem registers (h : s.Timed) {id : String} {new : NewRange} (hnow : now.Readable)
    (hnew : s.Registers id new now t) : t.Timed := by
  intro r hr
  rw [hnew.ranges] at hr
  rcases List.mem_append.1 hr with hold | hadded
  · exact h r hold
  · obtain rfl := List.mem_singleton.1 hadded
    exact ⟨hnow, nofun⟩

/-- Only registrations and warnings give a range a time of the clock. -/
theorem after (h : s.Timed) {e : Event} (he : e.Dated) : (s.after e).Timed := by
  obtain ⟨clock, call⟩ := e
  cases call with
  | assign desk series document =>
    simp only [Store.after, Desk.assign]
    cases hassign : s.assign clock series document with
    | ok res =>
      obtain ⟨row, hout⟩ := assign_handsOut (a := res.1) (t := res.2) hassign
      simp only [hout.result]
      exact (h.setFolio _ _ _).settle row.rangeId
    | error failure => exact h
  | void desk series number reason =>
    simp only [Store.after, Desk.void]
    cases hvoid : s.void clock series number reason with
    | ok res =>
      obtain ⟨voided, t⟩ := res
      obtain ⟨row, -, -, -, -, rfl⟩ := void_eq_ok hvoid
      exact (h.setFolio _ _ _).settle row.rangeId
    | error failure => exact h
  | bind =>
    refine keep_snd_of h fun _ t hbind => ?_
    rcases bind_eq_ok_cases hbind with rfl | ⟨state, rfl⟩
    · exact h
    · exact h.setFolio _ _ _
  | register => exact keep_snd_of h fun _ _ hregister => h.registers he.clock (register_registers hregister)
  | ingest monitor faulty id poll new =>
    rcases poll.register_registers s monitor faulty id clock new with hsame | hregisters
    · exact h.of_ranges (congrArg Store.ranges hsame)
    · exact h.registers he.clock hregisters
  | expire => exact keep_snd_of h fun _ _ hexpire => h.expire hexpire
  | markNearExpiry id moment => exact h.markNearExpiry id (he.moment moment rfl)
  | sweep watch moment => exact h.sweep watch (he.moment moment rfl)
  | _ => exact h.of_ranges (Event.sameLedger rfl).ranges

theorem run {es : List Event} (hes : ∀ e ∈ es, e.Dated) : (Store.empty.run es).Timed := by
  induction es using List.reverseRecOn with
  | nil => exact .empty
  | append_singleton es e ih =>
    rw [run_append]
    exact (ih fun e' he' => hes e' (List.mem_append_left _ he')).after (hes e (by simp))

end Timed

/-- Of a range that has expired by the milliseconds of an instant, only the times at which it was registered
and warned about may be past what can be read back. -/
theorem dated_of_expired {es : List Event} {r : RangeRow} (hr : r ∈ (empty.run es).ranges)
    (hle : r.expiresAt ≤ now.toMillis) (hnow : now.Readable) :
    (∃ a, Instant.ofMillis r.authorizedAt = .ok a) ∧ ∃ e, Instant.ofMillis r.expiresAt = .ok e := by
  obtain ⟨e, -, id, new, hdeed, hlasts⟩ := exists_registered hr
  have hauthorized : r.authorizedAt = new.authorizedAt.toMillis := congrArg (·.authorizedAt) hdeed
  have hexpires : r.expiresAt = new.expiresAt.toMillis := congrArg (·.expiresAt) hdeed
  rw [hexpires] at hle
  have hlast := Instant.readable_iff_toMillis.1 hnow
  rw [hauthorized, hexpires]
  exact ⟨Instant.readable_iff_toMillis.2 (Int.le_trans (Int.le_of_lt hlasts) (Int.le_trans hle hlast)),
    Instant.readable_iff_toMillis.2 (Int.le_trans hle hlast)⟩

theorem legible_of_timed {es : List Event} (h : (empty.run es).Timed) {r : RangeRow}
    (hr : r ∈ (empty.run es).ranges) (hle : r.expiresAt ≤ now.toMillis) (hnow : now.Readable) :
    r.Legible := by
  obtain ⟨hauthorized, hexpires⟩ := dated_of_expired hr hle hnow
  obtain ⟨hregistered, hwarned⟩ := h r hr
  refine RangeRecord.legible_iff.2 ⟨hauthorized, hexpires, hregistered, ?_⟩
  cases hms : r.nearExpiryAlertedAt with
  | none => exact ⟨none, rfl⟩
  | some ms =>
    obtain ⟨t, ht⟩ := hwarned ms hms
    exact ⟨some t, by rw [Option.mapM_some, ht]; rfl⟩

/-! ## What was registered -/

theorem toRange_toRow_eq_floor_iff {new : NewRange} {id : String} :
    (new.toRow id now).toRange = .ok (new.toRange id now).floor ↔
      new.authorizedAt.isLeap = false ∧ new.expiresAt.isLeap = false ∧ now.isLeap = false := by
  rw [← Instant.ofMillis_toMillis_iff, ← Instant.ofMillis_toMillis_iff, ← Instant.ofMillis_toMillis_iff]
  constructor
  · intro h
    unfold RangeRecord.toRange at h
    obtain ⟨authorizedAt, hauthorized, h⟩ := bind_eq_ok.1 h
    obtain ⟨expiresAt, hexpires, h⟩ := bind_eq_ok.1 h
    obtain ⟨registeredAt, hregistered, h⟩ := bind_eq_ok.1 h
    obtain ⟨nearExpiryAlertedAt, -, h⟩ := bind_eq_ok.1 h
    have hrange := Except.ok.inj h
    obtain rfl : authorizedAt = new.authorizedAt.floor := congrArg (·.authorizedAt) hrange
    obtain rfl : expiresAt = new.expiresAt.floor := congrArg (·.expiresAt) hrange
    obtain rfl : registeredAt = now.floor := congrArg (·.registeredAt) hrange
    exact ⟨hauthorized, hexpires, hregistered⟩
  · rintro ⟨hauthorized, hexpires, hregistered⟩
    simp only [RangeRecord.toRange, NewRange.toRow, hauthorized, hexpires, hregistered]
    rfl

theorem getRange_of_register (hs : Coherent s) {limit : Nat} {faulty : Option Nat} {id : String}
    {new : NewRange} {range : Range} (h : s.register limit faulty id now new = .ok (range, t)) :
    range = new.toRange id now ∧ t.getRange range.id = (new.toRow id now).toRange := by
  have ht : Coherent t := hs.edit (register_edit h)
  obtain ⟨-, rfl, hres⟩ := register_eq_ok h
  have hmem : new.toRow id now ∈ t.ranges := by
    rw [hres]
    exact List.mem_append_right _ (List.mem_singleton_self _)
  refine ⟨rfl, ?_⟩
  unfold getRange
  rw [show t.range? (new.toRange id now).id = _ from ht.toAligned.range?_of_mem hmem]

/-- What the store keeps of instants agrees with them outside of leap seconds.  The last whole
millisecond is given back; an expiry that was kept has come by milliseconds exactly when it has come; a
sweep goes through and leaves no expired range active and all stock counted, in every run whose times
can be read back; and a range is given back with its times in whole milliseconds exactly if none of them
lies in a leap second. -/
theorem stored_times_agree {es : List Event} (hes : ∀ e ∈ es, e.Dated) {now : Instant}
    (hplain : now.isLeap = false) :
    (∃ u, Instant.ofMillis now.toMillis = .ok u ∧
      IsGreatest {v : Instant | v.WholeMillis ∧ v ≤ now} u) ∧
    (∀ e : Instant, e.OnScale → (e ≤ now ↔ e.toMillis ≤ now.toMillis)) ∧
    (∀ r ∈ (empty.run es).ranges, ∀ e, Instant.ofMillis r.expiresAt = .ok e →
      (e ≤ now ↔ r.expiresAt ≤ now.toMillis)) ∧
    (∃ expired t, (empty.run es).expire now = .ok (expired, t) ∧ t.Current now) ∧
    ∀ (limit : Nat) (faulty : Option Nat) (id : String) (new : NewRange) (range : Range) (t : Store),
      (empty.run es).register limit faulty id now new = .ok (range, t) →
      (t.getRange range.id = .ok range.floor ↔
        range.authorizedAt.isLeap = false ∧ range.expiresAt.isLeap = false) := by
  have hnow := Instant.readable_of_not_leap hplain
  refine ⟨⟨now.floor, Instant.ofMillis_toMillis_iff.2 hplain, now.floor_isGreatest⟩,
    fun e he => he.le_iff hplain, fun r _ e he => ?_, ?_, ?_⟩
  · rw [(Instant.onScale_of_ofMillis he).le_iff hplain, Instant.toMillis_of_ofMillis he]
  · obtain ⟨expired, t, hexpire⟩ := exists_expire_of_legible fun r hr hdue =>
      legible_of_timed (Timed.run hes) hr (isDue_iff.1 hdue).2 hnow
    exact ⟨expired, t, hexpire, .of_expire hexpire⟩
  · intro limit faulty id new range t h
    obtain ⟨rfl, hget⟩ := getRange_of_register (run_coherent es) h
    rw [hget, toRange_toRow_eq_floor_iff]
    exact and_congr_right fun _ => and_iff_left hplain

/-- Two ranges of a series, of which the one that expires first was warned about. -/
def warned : List Event :=
  [⟨earlyAt 2, .register 10 none "R1" ⟨⟨"A", "T"⟩, 1, 5, earlyAt 0, earlyAt 10, none, none⟩⟩,
   ⟨earlyAt 2, .register 10 none "R2" ⟨⟨"A", "T"⟩, 11, 15, earlyAt 0, earlyAt 50, none, none⟩⟩,
   ⟨earlyAt 9, .markNearExpiry "R1" (earlyAt 9)⟩]

/-- Half a millisecond after the first has expired, it goes and the folios of the other are counted. -/
theorem stored_times_agree_warned :
    let now : Instant := { earlyAt 10 with nano := 500000, nano_lt := by decide, leap := by decide }
    (∃ u, Instant.ofMillis now.toMillis = .ok u ∧
      IsGreatest {v : Instant | v.WholeMillis ∧ v ≤ now} u) ∧
    (earlyAt 10 ≤ now ↔ (earlyAt 10).toMillis ≤ now.toMillis) ∧
    ∃ expired t, (empty.run warned).expire now = .ok (expired, t) ∧ t.Current now ∧
      expired.map (·.id) = ["R1"] ∧ t.countAvailable ⟨"A", "T"⟩ now.toMillis = 5 := by
  intro now
  have hes : ∀ e ∈ warned, e.Dated := by
    simp only [warned, List.forall_mem_cons]
    exact ⟨⟨by decide, by simp [Call.warnsAt?]⟩, ⟨by decide, by simp [Call.warnsAt?]⟩,
      ⟨by decide, by simpa [Call.warnsAt?] using (by decide : (earlyAt 9).Readable)⟩, by simp⟩
  have hplain : now.isLeap = false := by decide
  obtain ⟨hfloor, hexpiry, -, ⟨expired, t, hexpire, hcurrent⟩, -⟩ := stored_times_agree hes hplain
  have hoff : ((empty.run warned).expire now).toOption.map (fun res =>
      (res.1.map (·.id), res.2.countAvailable ⟨"A", "T"⟩ now.toMillis)) = some (["R1"], 5) := by decide
  rw [hexpire] at hoff
  obtain ⟨hids, hcount⟩ := Prod.mk.inj (Option.some.inj hoff)
  exact ⟨hfloor, hexpiry _ (by decide), expired, t, hexpire, hcurrent, hids, hcount⟩

end Store

end FolioLedger
