import FolioLedger.Engine
import FolioLedger.Proofs.Ledger.Numbering
import FolioLedger.Proofs.Time.Instant

/-!
# Settings and the end of the calendar

Three times are reckoned from a clock by the settings: the deadline of a lock, which is clipped to what
fits; the end of the warning window, which a sweep needs after it has expired ranges and given
warnings; and the instant at which a poll gives up.  The last two may lie beyond the calendar, and then
the sweep or the poll stops short (`Watch.sweep_eq_overflow_iff`, `Poll.start?_eq_none_iff`).  The
settings that are refused bound neither.
-/

namespace FolioLedger

open Store

/-! ## The years that are looked at -/

namespace Instant

/-- The instant is in one of the years 1970 to 9999. -/
def Usual (t : Instant) : Prop := 1970 ≤ t.date.year ∧ t.date.year ≤ 9999

theorem usual_iff {t : Instant} : t.Usual ↔ 0 ≤ t.second ∧ t.second ≤ 253402300799 := by
  have hnext : t.date.year ≤ 9999 ↔ ¬ 10000 ≤ t.date.year := by omega
  have hfirst : Date.daysBeforeYear 1970 - Date.daysBeforeYear 1970 = 0 := by decide
  have hlast : Date.daysBeforeYear 10000 - Date.daysBeforeYear 1970 = 2932897 := by decide
  unfold Usual
  rw [hnext, le_year_iff, le_year_iff, hfirst, hlast]
  omega

/-- The last second of the year 9999. -/
def lastUsual : Instant where
  second := 253402300799
  nano := 0
  min_le := by decide
  le_max := by decide
  nano_lt := Instant.epoch.nano_lt
  leap := by decide

theorem usual_lastUsual : lastUsual.Usual := usual_iff.2 (by decide)

/-- So much can be added in each of these years before the calendar ends. -/
theorem forall_usual_iff (secs : Int) :
    (∀ t : Instant, t.Usual → t.second + secs ≤ maxSecond) ↔ secs ≤ 7956864576000 := by
  constructor
  · intro h
    have hlast : 253402300799 + secs ≤ 8210266876799 := h lastUsual usual_lastUsual
    omega
  · intro h t husual
    obtain ⟨-, hsecond⟩ := usual_iff.1 husual
    unfold maxSecond
    omega

theorem addDays?_eq_none_iff (t : Instant) {days : Int} (h : 0 ≤ days) :
    t.addDays? days = none ↔ maxSecond < t.second + 86400 * days := by
  obtain ⟨n, rfl⟩ := Int.eq_ofNat_of_zero_le h
  have hnanos : (n : Int) * nanosPerDay = ((86400 * n : Nat) : Int) * 1000000000 := by
    unfold nanosPerDay
    omega
  unfold addDays?
  rw [hnanos, add?_eq_none_iff]
  omega

end Instant

/-! ## Deadlines of locks -/

/-- The deadline of a lock fits a signed word of 64 bits, whatever is asked for. -/
theorem Lock.deadline_fits (acquiredAt : Millis) (ttl : Int) :
    -9223372036854775808 ≤ deadline acquiredAt ttl ∧
      deadline acquiredAt ttl ≤ 9223372036854775807 := by
  show (-9223372036854775808 : Int) ≤ saturate _ ∧ (saturate _ : Int) ≤ 9223372036854775807
  unfold saturate
  omega

/-! ## Sweeps -/

namespace Watch

variable {w : Watch} {s : Store} {now : Instant}

theorem triggers_eq_overflow_iff (near : List Range) : w.triggers now s near = .error .overflow ↔
    w.lowWater.isSome ∧ now.addDays? w.nearDays = none := by
  unfold triggers
  cases w.lowWater with
  | none => simp
  | some lowWater => cases now.addDays? w.nearDays <;> simp

/-- A sweep stops short if it comes to look at the stock beyond the warning window, and the window ends
after the calendar. -/
theorem sweep_eq_overflow_iff (hdays : 0 ≤ w.nearDays) :
    (w.sweep s now).1 = .error .overflow ↔
      (∃ expired t active, s.expire now = .ok (expired, t) ∧
        t.listRanges { status := some .active } = .ok active) ∧
      w.lowWater.isSome ∧ Instant.maxSecond < now.second + 86400 * w.nearDays := by
  rw [← now.addDays?_eq_none_iff hdays]
  unfold sweep
  cases hexpire : s.expire now with
  | error failure => simp
  | ok res =>
    obtain ⟨expired, t⟩ := res
    simp only
    cases hactive : t.listRanges { status := some .active } with
    | error failure =>
      simp only [reduceCtorEq, Except.error.injEq, false_iff, not_and]
      rintro ⟨expired', t', active, hsame, hlisted⟩
      cases hsame
      rw [hactive] at hlisted
      cases hlisted
    | ok active =>
      have hreached : ∃ expired' t' active', (Except.ok (expired, t) : Except Failure _) =
          .ok (expired', t') ∧ t'.listRanges { status := some .active } = .ok active' :=
        ⟨expired, t, active, rfl, hactive⟩
      simp only [hreached, true_and]
      rw [← triggers_eq_overflow_iff (s := (w.warnAll now t (w.nearExpiry now active)).2)
        (w.nearExpiry now active)]
      cases w.triggers now (w.warnAll now t (w.nearExpiry now active)).2
        (w.nearExpiry now active) with
      | error halt => simp
      | ok triggers => simp

theorem empty_sweeps (now : Instant) : ∃ expired t active,
    Store.empty.expire now = .ok (expired, t) ∧
      t.listRanges { status := some .active } = .ok active := by
  refine ⟨[], Store.empty, [], rfl, ?_⟩
  simp only [Store.listRanges, Store.empty, List.filter_nil, List.mergeSort_nil]
  rfl

theorem never_overflows_iff (hdays : 0 ≤ w.nearDays) (hlow : w.lowWater.isSome) :
    (∀ (es : List Event) (now : Instant), now.Usual →
      (w.sweep (Store.empty.run es) now).1 ≠ .error .overflow) ↔ w.nearDays ≤ 92093340 := by
  have hfits := Instant.forall_usual_iff (86400 * w.nearDays)
  constructor
  · intro hnever
    have hsecs : 86400 * w.nearDays ≤ 7956864576000 := by
      apply hfits.1
      intro now husual
      apply Int.not_lt.1
      intro hbeyond
      exact hnever [] now husual ((sweep_eq_overflow_iff hdays).2 ⟨empty_sweeps now, hlow, hbeyond⟩)
    omega
  · intro hle es now husual hover
    obtain ⟨-, -, hbeyond⟩ := (sweep_eq_overflow_iff hdays).1 hover
    have hwithin := hfits.2 (by omega) now husual
    omega

end Watch

/-! ## Polls -/

namespace Poll

/-- How long a poll may go on, in seconds. -/
def patienceSecs (m : Monitor) : Nat :=
  if m.pollTimeout ≤ 9223372036854775 then m.pollTimeout else 86400

theorem patience_eq (m : Monitor) : patience m = patienceSecs m * 1000000000 := by
  unfold patience patienceSecs
  split
  · rfl
  · rfl

/-- A poll has no deadline if the calendar ends before. -/
theorem start?_eq_none_iff {m : Monitor} {request : ReplenishmentRequest} {lease : Lease} :
    start? m request lease = none ↔
      Instant.maxSecond < request.requestedAt.second + patienceSecs m := by
  unfold start?
  rw [Option.map_eq_none_iff, patience_eq, Instant.add?_eq_none_iff]

theorem always_starts_iff (m : Monitor) :
    (∀ (request : ReplenishmentRequest) (lease : Lease), request.requestedAt.Usual →
      start? m request lease ≠ none) ↔ patienceSecs m ≤ 7956864576000 := by
  have hfits := Instant.forall_usual_iff (patienceSecs m)
  constructor
  · intro halways
    have hsecs : (patienceSecs m : Int) ≤ 7956864576000 := by
      apply hfits.1
      intro t husual
      apply Int.not_lt.1
      intro hbeyond
      let request : ReplenishmentRequest :=
        ⟨"trk-1", ⟨"A", "T"⟩, 1, 5, .pending, none, none, t, none⟩
      exact halways request ⟨"replenish:A:T", "token", 1, t⟩ husual (start?_eq_none_iff.2 hbeyond)
    omega
  · intro hle request lease husual hnone
    have hwithin := hfits.2 (by omega) request.requestedAt husual
    exact absurd (start?_eq_none_iff.1 hnone) (Int.not_lt.2 hwithin)

theorem patienceSecs_le_iff (m : Monitor) : patienceSecs m ≤ 7956864576000 ↔
    m.pollTimeout ≤ 7956864576000 ∨ 9223372036854775 < m.pollTimeout := by
  unfold patienceSecs
  split <;> omega

end Poll

/-! ## Settings -/

namespace EngineConfig

variable {c : EngineConfig}

theorem check_eq_ok (h : c.check = .ok ()) : 1 ≤ c.requestQuantity ∧ 0 ≤ c.nearExpiryDays ∧
    1 ≤ c.validityMonths ∧ 1 ≤ c.pollTimeoutSecs ∧ c.pollIntervalSecs < c.requestLockTtlSecs := by
  have hnone : c.fault? = none := by
    unfold check at h
    split at h
    · cases h
    · assumption
  unfold fault? at hnone
  repeat' split at hnone
  all_goals first | omega | cases hnone

/-- Under settings that are accepted, a lock gets a deadline that can be stored, and a sweep or a poll
stops short exactly if its window or its patience ends after the calendar.  In the years 1970 to 9999
no sweep does as long as the window is at most 92093340 days, and no poll does as long as its patience
is at most 7956864576000 seconds, or so long that it is taken for a day. -/
theorem stops_short_iff (hc : c.check = .ok ()) (verifier : Verifier) (faulty : Option Nat) :
    (∀ acquiredAt ttl, -9223372036854775808 ≤ Lock.deadline acquiredAt ttl ∧
      Lock.deadline acquiredAt ttl ≤ 9223372036854775807) ∧
    (∀ (s : Store) (now : Instant),
      (((Engine.ofConfig c verifier faulty).watch.sweep s now).1 = .error .overflow ↔
        (∃ expired t active, s.expire now = .ok (expired, t) ∧
          t.listRanges { status := some .active } = .ok active) ∧
        Instant.maxSecond < now.second + 86400 * c.nearExpiryDays)) ∧
    (∀ (request : ReplenishmentRequest) (lease : Lease),
      (Poll.start? (Engine.ofConfig c verifier faulty).workshop.monitor request lease = none ↔
        Instant.maxSecond < request.requestedAt.second + Poll.patienceSecs c.monitor)) ∧
    ((∀ (es : List Event) (now : Instant), now.Usual →
        ((Engine.ofConfig c verifier faulty).watch.sweep (Store.empty.run es) now).1 ≠
          .error .overflow) ↔ c.nearExpiryDays ≤ 92093340) ∧
    ((∀ (request : ReplenishmentRequest) (lease : Lease), request.requestedAt.Usual →
        Poll.start? (Engine.ofConfig c verifier faulty).workshop.monitor request lease ≠ none) ↔
      c.pollTimeoutSecs ≤ 7956864576000 ∨ 9223372036854775 < c.pollTimeoutSecs) := by
  obtain ⟨-, hdays, -, -⟩ := check_eq_ok hc
  refine ⟨Lock.deadline_fits, fun s now => ?_, fun _ _ => Poll.start?_eq_none_iff, ?_, ?_⟩
  · rw [Watch.sweep_eq_overflow_iff hdays]
    simp [Engine.ofConfig]
  · exact Watch.never_overflows_iff hdays rfl
  · exact (Poll.always_starts_iff _).trans (Poll.patienceSecs_le_iff _)

/-- Under the settings that are set out with, nothing stops short before the year 10000. -/
theorem stops_short_iff_default :
    ({} : EngineConfig).check = .ok () ∧
      (∀ (es : List Event) (now : Instant), now.Usual →
        ((Engine.ofConfig {} ⟨[], 6⟩ none).watch.sweep (Store.empty.run es) now).1 ≠
          .error .overflow) ∧
      ∀ (request : ReplenishmentRequest) (lease : Lease), request.requestedAt.Usual →
        Poll.start? (Engine.ofConfig {} ⟨[], 6⟩ none).workshop.monitor request lease ≠ none := by
  obtain ⟨-, -, -, hsweep, hpoll⟩ := stops_short_iff (c := {}) (by decide) ⟨[], 6⟩ none
  exact ⟨by decide, hsweep.2 (by decide), hpoll.2 (.inl (by decide))⟩

/-- A window of a thousand million days. -/
def farSighted : EngineConfig := { nearExpiryDays := 1000000000 }

/-- A patience of nine million million seconds. -/
def patient : EngineConfig := { pollTimeoutSecs := 9000000000000 }

/-- Both are accepted.  Under the first a sweep in 1970 warns about a range and stops short, under the
second no poll of a request from 1970 has a deadline. -/
theorem accepted_and_stopped_short :
    farSighted.check = .ok () ∧ patient.check = .ok () ∧ (earlyAt 2).Usual ∧
      (let range := ⟨⟨"A", "T"⟩, 1, 5, earlyAt 0, earlyAt 50, none, none⟩
        let s := Store.empty.run [⟨earlyAt 1, .register 10 none "low" range⟩]
        let (outcome, t, outbox) := (Engine.ofConfig farSighted ⟨[], 6⟩ none).watch.sweep s (earlyAt 2)
        outcome = .error .overflow ∧ t.ranges.map (·.nearExpiryAlertedAt) = [some 2000] ∧
          outbox.alerts = [.rangeNearExpiry ⟨"A", "T"⟩ "low" 0 5]) ∧
      Poll.start? (Engine.ofConfig patient ⟨[], 6⟩ none).workshop.monitor
        ⟨"trk-1", ⟨"A", "T"⟩, 1, 5, .pending, none, none, earlyAt 2, none⟩
        ⟨"replenish:A:T", "token", 1, earlyAt 30⟩ = none := by
  refine ⟨by decide, by decide, Instant.usual_iff.2 (by decide), ?_, ?_⟩
  · decide +kernel
  · exact Poll.start?_eq_none_iff.2 (by decide)

end EngineConfig

end FolioLedger
