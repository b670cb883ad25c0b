import FolioLedger.Proofs.Time.Floor
import FolioLedger.Proofs.Time.Pace
import FolioLedger.Validity

/-!
# Validity as time goes on

The whole days up to an instant never become more while time goes on (`Instant.daysSince_anti`): before the
instant they are the days that are left, after it those that have passed, with a minus sign, and on both sides
what is less than a day is dropped.  The nanoseconds up to an instant do become more at times, as a leap second
is counted for one reading of the clock and not for the next; but after a reading outside of leap seconds only
by so little that they stay within one day (`Instant.since_le_or_within_day`).

So the validity of a range only gets worse, and the warning window is exact to the nanosecond: it opens when
fewer nanoseconds are left than its days and one more have (`validity_worsens_and_window_exact`).
-/

namespace FolioLedger

namespace Instant

variable {t u v : Instant}

/-! ## Nanoseconds up to an instant -/

/-- The nanoseconds from 1970 on, without leap seconds. -/
def nanos (t : Instant) : Int := t.second * 1000000000 + t.nano

theorem lt_iff_nanos (ht : t.isLeap = false) (hu : u.isLeap = false) :
    t < u ↔ t.nanos < u.nanos := by
  rw [isLeap_eq_false_iff] at ht hu
  change t.second < u.second ∨ (t.second = u.second ∧ t.nano < u.nano) ↔
    t.second * 1000000000 + t.nano < u.second * 1000000000 + u.nano
  omega

theorem nanos_sub_eq_since (ht : t.isLeap = false) (hu : u.isLeap = false) :
    t.nanos - u.nanos = t.since u := by
  rw [isLeap_eq_false_iff] at ht hu
  obtain ⟨counted, hsince, hcounted⟩ := since_eq u t
  rw [← hsince]
  unfold nanos
  omega

/-- After a reading outside of leap seconds, the nanoseconds up to an instant become fewer or stay within the
same day. -/
theorem since_le_or_within_day (hu : u.isLeap = false) (hle : u ≤ v) :
    t.since v ≤ t.since u ∨ ∃ days : Int, days * nanosPerDay < t.since u ∧
      t.since v < (days + 1) * nanosPerDay := by
  rw [isLeap_eq_false_iff] at hu
  obtain ⟨counted, hsince, hcounted⟩ := since_eq u t
  obtain ⟨counted', hsince', hcounted'⟩ := since_eq v t
  obtain ⟨ns, hns⟩ : ∃ ns : Int, ns = t.since u := ⟨_, rfl⟩
  obtain ⟨ns', hns'⟩ : ∃ ns' : Int, ns' = t.since v := ⟨_, rfl⟩
  rw [← hns] at hsince ⊢
  rw [← hns'] at hsince' ⊢
  by_cases hless : ns' ≤ ns
  · exact .inl hless
  refine .inr ⟨t.date.toDays - v.date.toDays, ?_⟩
  change (t.date.toDays - v.date.toDays : Int) * 86400000000000 < ns ∧
    ns' < (t.date.toDays - v.date.toDays + 1 : Int) * 86400000000000
  change u.second < v.second ∨ (u.second = v.second ∧ u.nano ≤ v.nano) at hle
  have hnano := t.nano_lt
  have hleap := v.leap
  have hsecond := t.second_eq
  have hsecond' := u.second_eq
  have hsecond'' := v.second_eq
  have hclock := t.secondOfDay_lt
  have hclock' := u.secondOfDay_lt
  rcases hcounted with ⟨-, -, hu'⟩ | ⟨rfl, hbefore, ht⟩ | ⟨rfl, -⟩
  · omega
  · -- Midnight is between the readings: only the earlier one is later in its day than `t`, a leap second.
    have hnext : v.second = u.second + 1 := by omega
    have hmidnight : v.secondOfDay = 0 := by omega
    omega
  · -- The readings are in one second, the later one in its leap second, which is counted.
    have hsame : v.second = u.second := by omega
    omega

/-! ## Whole days up to an instant -/

/-- More than some whole days have passed when one more has. -/
theorem daysSince_lt_iff {days : Int} (h : days ≤ 0) :
    t.daysSince u < days ↔ t.since u ≤ (days - 1) * nanosPerDay := by
  obtain ⟨ns, hns⟩ : ∃ ns : Int, ns = t.since u := ⟨_, rfl⟩
  have hpassed := lt_wholeDays_iff (-ns) (Int.neg_nonneg_of_nonpos h)
  rw [Int.neg_tdiv, Int.neg_tdiv, Int.neg_lt_neg_iff] at hpassed
  unfold daysSince
  rw [← hns]
  refine hpassed.trans ?_
  change _ ↔ ns ≤ (days - 1) * 86400000000000
  omega

/-- After a reading outside of leap seconds, the whole days up to an instant never become more. -/
theorem daysSince_anti (hu : u.isLeap = false) (hle : u ≤ v) : t.daysSince v ≤ t.daysSince u := by
  rcases since_le_or_within_day hu hle with hless | ⟨days, hstart, hend⟩
  · exact Int.tdiv_le_tdiv (by decide) (Int.tdiv_le_tdiv (by decide) hless)
  obtain ⟨ns, hns⟩ : ∃ ns : Int, ns = t.since u := ⟨_, rfl⟩
  obtain ⟨ns', hns'⟩ : ∃ ns' : Int, ns' = t.since v := ⟨_, rfl⟩
  have hfirst : days * 86400000000000 < ns := hns ▸ hstart
  have hlast : ns' < (days + 1) * 86400000000000 := hns' ▸ hend
  generalize hcount : t.daysSince v = count
  by_cases hleft : 0 < count
  · -- So many days fit into what is left at the later reading, and so at the earlier one.
    have hfits : (count - 1 + 1) * 86400000000000 ≤ ns' :=
      hns' ▸ (lt_daysSince_iff (by omega)).1 (by omega)
    have hfits' : (count - 1 + 1) * 86400000000000 ≤ ns := by omega
    exact Int.sub_one_lt_iff.1 ((lt_daysSince_iff (by omega)).2 (hns ▸ hfits'))
  · -- Had one more passed at the earlier reading, it would have at the later one.
    apply Int.not_lt.1
    intro hpassed
    have hpast : ns ≤ (count - 1) * 86400000000000 :=
      hns ▸ (daysSince_lt_iff (by omega)).1 hpassed
    have hpast' : ns' ≤ (count - 1) * 86400000000000 := by omega
    have hless : t.daysSince v < count := (daysSince_lt_iff (by omega)).2 (hns' ▸ hpast')
    omega

/-- From a reading in a leap second on, they may become more. -/
example : ∃ t u v : Instant, u ≤ v ∧ t.daysSince u = 0 ∧ t.daysSince v = 1 :=
  ⟨⟨172800, 500000000, by decide, by decide, by decide, by decide⟩,
    ⟨86399, 1900000000, by decide, by decide, by decide, by decide⟩,
    ⟨86400, 200000000, by decide, by decide, by decide, by decide⟩, by decide, by decide, by decide⟩

/-- Before an instant, at most some whole days are left when one more does not fit. -/
theorem daysSince_le_iff_of_lt (ht : t.isLeap = false) (hu : u.isLeap = false) (hlt : u < t) {days : Int} :
    t.daysSince u ≤ days ↔ t.nanos - u.nanos < (days + 1) * nanosPerDay := by
  have hleft : 0 < t.nanos - u.nanos := Int.sub_pos_of_lt ((lt_iff_nanos hu ht).1 hlt)
  by_cases hdays : 0 ≤ days
  · rw [← Int.not_lt, lt_daysSince_iff hdays, ← nanos_sub_eq_since ht hu]
    exact Int.not_le
  · have hnone : ¬ t.daysSince u < 0 := by
      rw [daysSince_lt_iff (Int.le_refl 0), ← nanos_sub_eq_since ht hu]
      change ¬ t.nanos - u.nanos ≤ (0 - 1 : Int) * 86400000000000
      omega
    change _ ↔ t.nanos - u.nanos < (days + 1) * 86400000000000
    omega

end Instant

/-! ## Validity -/

/-- How bad a validity is. -/
def Validity.severity : Validity → Nat
  | valid => 0
  | nearExpiry => 1
  | expired => 2

section Classified

variable {expiresAt now later : Instant} {nearDays : Int}

theorem classifyValidity_cases (expiresAt now : Instant) (nearDays : Int) :
    (expiresAt ≤ now ∧
      classifyValidity expiresAt now nearDays = (.expired, expiresAt.daysSince now)) ∨
    (now < expiresAt ∧ expiresAt.daysSince now ≤ nearDays ∧
      classifyValidity expiresAt now nearDays = (.nearExpiry, expiresAt.daysSince now)) ∨
    (now < expiresAt ∧ nearDays < expiresAt.daysSince now ∧
      classifyValidity expiresAt now nearDays = (.valid, expiresAt.daysSince now)) := by
  unfold classifyValidity
  by_cases hexpired : expiresAt ≤ now
  · exact .inl ⟨hexpired, if_pos hexpired⟩
  · refine .inr ?_
    simp only [hexpired, if_false]
    have hlive : now < expiresAt := Instant.not_le.1 hexpired
    by_cases hnear : expiresAt.daysSince now ≤ nearDays
    · exact .inl ⟨hlive, hnear, if_pos hnear⟩
    · exact .inr ⟨hlive, Int.not_le.1 hnear, if_neg hnear⟩

theorem classifyValidity_snd :
    (classifyValidity expiresAt now nearDays).2 = expiresAt.daysSince now := by
  rcases classifyValidity_cases expiresAt now nearDays with ⟨-, h⟩ | ⟨-, -, h⟩ | ⟨-, -, h⟩ <;> rw [h]

theorem classifyValidity_eq_expired_iff :
    (classifyValidity expiresAt now nearDays).1 = .expired ↔ expiresAt ≤ now := by
  rcases classifyValidity_cases expiresAt now nearDays with
    ⟨hexpired, h⟩ | ⟨hlive, -, h⟩ | ⟨hlive, -, h⟩
  · simp [h, hexpired]
  · simp [h, Instant.not_le.2 hlive]
  · simp [h, Instant.not_le.2 hlive]

theorem classifyValidity_eq_nearExpiry_iff :
    (classifyValidity expiresAt now nearDays).1 = .nearExpiry ↔
      now < expiresAt ∧ expiresAt.daysSince now ≤ nearDays := by
  rcases classifyValidity_cases expiresAt now nearDays with
    ⟨hexpired, h⟩ | ⟨hlive, hnear, h⟩ | ⟨hlive, hfar, h⟩
  · simp [h, ← Instant.not_le, hexpired]
  · simp [h, hlive, hnear]
  · simp [h, hfar]

/-- As long as the whole days left never become more, validity only gets worse. -/
theorem severity_classifyValidity_mono (hle : now ≤ later)
    (hdays : expiresAt.daysSince later ≤ expiresAt.daysSince now) :
    (classifyValidity expiresAt now nearDays).1.severity ≤
      (classifyValidity expiresAt later nearDays).1.severity := by
  cases hnow : (classifyValidity expiresAt now nearDays).1 with
  | valid => exact Nat.zero_le _
  | nearExpiry =>
    obtain ⟨-, hnear⟩ := classifyValidity_eq_nearExpiry_iff.1 hnow
    by_cases hexpired : expiresAt ≤ later
    · rw [classifyValidity_eq_expired_iff.2 hexpired]
      decide
    · have hlive : later < expiresAt := Instant.not_le.1 hexpired
      rw [classifyValidity_eq_nearExpiry_iff.2 ⟨hlive, Int.le_trans hdays hnear⟩]
  | expired =>
    have hexpired : expiresAt ≤ later := Instant.le_trans (classifyValidity_eq_expired_iff.1 hnow) hle
    rw [classifyValidity_eq_expired_iff.2 hexpired]

end Classified

/-- From a reading outside of leap seconds on, validity only gets worse and the days never become more, on
both sides of the expiry and for every window.  A range is expired from its expiry on, and near expiry before
it as long as less is left than the days of the window and one more; if the window is negative, that is
never. -/
theorem validity_worsens_and_window_exact (nearDays : Int) (expiresAt now later : Instant)
    (hnow : now.isLeap = false) (hle : now ≤ later) :
    (classifyValidity expiresAt now nearDays).1.severity ≤
      (classifyValidity expiresAt later nearDays).1.severity ∧
    (classifyValidity expiresAt later nearDays).2 ≤ (classifyValidity expiresAt now nearDays).2 ∧
    ((classifyValidity expiresAt now nearDays).1 = .expired ↔ expiresAt ≤ now) ∧
    (expiresAt.isLeap = false →
      ((classifyValidity expiresAt now nearDays).1 = .nearExpiry ↔ now < expiresAt ∧
        expiresAt.nanos - now.nanos < (nearDays + 1) * Instant.nanosPerDay)) := by
  have hdays : expiresAt.daysSince later ≤ expiresAt.daysSince now := Instant.daysSince_anti hnow hle
  refine ⟨severity_classifyValidity_mono hle hdays, ?_, classifyValidity_eq_expired_iff, ?_⟩
  · rw [classifyValidity_snd, classifyValidity_snd]
    exact hdays
  · intro hexpiry
    rw [classifyValidity_eq_nearExpiry_iff]
    apply and_congr_right
    intro hlive
    exact Instant.daysSince_le_iff_of_lt hexpiry hnow hlive

/-- An instant of January 1970. -/
def january (second : Fin 2678400) (nano : Fin 1000000000) : Instant where
  second := second.val
  nano := nano.val
  min_le := by
    unfold Instant.minSecond
    omega
  le_max := by
    unfold Instant.maxSecond
    omega
  nano_lt := by omega
  leap h := by omega

/-- Sixteen days before the expiry a window of fifteen days is still closed, and a nanosecond later it is
open; after the expiry nothing is better than that. -/
theorem validity_worsens_and_window_exact_sixteenDays :
    ((january 0 0).isLeap = false ∧ january 0 0 ≤ january 0 1) ∧
    ((january 0 1).isLeap = false ∧ january 0 1 ≤ january 1600000 0) ∧
    (january 1382400 0).isLeap = false ∧
    (classifyValidity (january 1382400 0) (january 0 0) 15).1 ≠ .nearExpiry ∧
    (classifyValidity (january 1382400 0) (january 0 1) 15).1 = .nearExpiry ∧
    Validity.nearExpiry.severity ≤
      (classifyValidity (january 1382400 0) (january 1600000 0) 15).1.severity ∧
    (classifyValidity (january 1382400 0) (january 1600000 0) 15).2 ≤
      (classifyValidity (january 1382400 0) (january 0 1) 15).2 := by
  have hexpiry : (january 1382400 0).isLeap = false := by decide
  obtain ⟨-, -, -, hclosed⟩ := validity_worsens_and_window_exact 15 (january 1382400 0) (january 0 0)
    (january 0 1) (by decide) (by decide)
  obtain ⟨hworse, hdays, -, hopen⟩ := validity_worsens_and_window_exact 15 (january 1382400 0)
    (january 0 1) (january 1600000 0) (by decide) (by decide)
  have hnear := (hopen hexpiry).2 ⟨by decide, by decide⟩
  refine ⟨⟨by decide, by decide⟩, ⟨by decide, by decide⟩, hexpiry, ?_, hnear, hnear ▸ hworse, hdays⟩
  intro hearly
  have hfits : (january 1382400 0).nanos - (january 0 0).nanos < (15 + 1) * Instant.nanosPerDay :=
    ((hclosed hexpiry).1 hearly).2
  exact absurd hfits (by decide)

end FolioLedger
