import FolioLedger.Failure
import FolioLedger.Proofs.Time.Calendar

/-!
# Later instants, and instants that are kept

An instant some months later is later, also by the milliseconds that the store keeps
(`Instant.later_of_addMonths?`).  Some seconds later there is an instant unless the calendar ends before
(`Instant.add?_eq_none_iff`).  More than some whole days are left if one more fits into the time left
(`Instant.lt_daysSince_iff`), and what lies more whole days ahead than were added is later
(`Instant.toMillis_lt_of_lt_daysSince`).  What the store keeps of an instant can be read back, unless it
lies in a leap second at the end of the calendar (`Instant.readable_iff`).  Whole milliseconds outside of
leap seconds are kept to the last digit (`Instant.OnScale`), and only among them is the order of instants
that of what is kept.
-/

namespace FolioLedger.Instant

variable {t u : Instant}

theorem ofParts?_eq_some {second : Int} {nano : Nat} (h : ofParts? second nano = some t) :
    t.second = second ∧ t.nano = nano := by
  unfold ofParts? at h
  split at h
  · cases h
    exact ⟨rfl, rfl⟩
  · cases h

protected theorem le_trans {v : Instant} (h : t ≤ u) (h' : u ≤ v) : t ≤ v := by
  change t.second < v.second ∨ (t.second = v.second ∧ t.nano ≤ v.nano)
  rcases h with h | ⟨h, hnano⟩ <;> rcases h' with h' | ⟨h', hnano'⟩ <;> omega

protected theorem not_le : ¬ t ≤ u ↔ u < t := by
  change ¬ (t.second < u.second ∨ (t.second = u.second ∧ t.nano ≤ u.nano)) ↔
    u.second < t.second ∨ (u.second = t.second ∧ u.nano < t.nano)
  omega

theorem not_lt_of_le (h : t ≤ u) : ¬ u < t := fun hlt => Instant.not_le.2 hlt h

theorem not_lt_of_le_of_lt {v : Instant} (h : t ≤ u) (h' : u < v) : ¬ v < t := by
  rcases h with h | ⟨h, h₁⟩ <;> rcases h' with h' | ⟨h', h₂⟩ <;> rintro (h₃ | ⟨h₃, h₄⟩) <;> omega

theorem secondOfDay_lt (t : Instant) : t.secondOfDay < 86400 := by
  unfold secondOfDay
  omega

theorem second_eq (t : Instant) : t.second = t.date.toDays * 86400 + t.secondOfDay := by
  rw [date, (Date.ofDays_spec _).2, secondOfDay]
  omega

theorem later_of_addMonths? {months : Nat} (hmonths : 1 ≤ months)
    (h : t.addMonths? months = some u) : t.toMillis < u.toMillis ∧ ¬ u ≤ t := by
  have hday := Date.toDays_lt_addMonths (Date.ofDays_spec (t.second / 86400)).1 hmonths
  rw [← date] at hday
  unfold addMonths? at h
  split at h
  · unfold ofDate? at h
    split at h
    · obtain ⟨hsecond, hnano⟩ := ofParts?_eq_some h
      have hlater : t.second < u.second := by
        have := t.second_eq
        omega
      refine ⟨?_, ?_⟩
      · show t.second * 1000 + (t.nano / 1000000 : Nat) < u.second * 1000 + (u.nano / 1000000 : Nat)
        omega
      · rintro (hlt | ⟨heq, -⟩) <;> omega
    · cases h
  · cases h

/-- The instant a number of months later: the same time of day in that month, on the same day or on the
last that the month has. -/
structure MonthsLater (months : Nat) (t u : Instant) : Prop where
  month : u.date.index = t.date.index + months
  day : u.date.day = min t.date.day (Date.daysInMonth u.date.year u.date.month)
  secondOfDay : u.secondOfDay = t.secondOfDay
  nano : u.nano = t.nano

theorem monthsLater_of_addMonths? {months : Nat} (h : t.addMonths? months = some u) :
    MonthsLater months t u := by
  unfold addMonths? ofDate? at h
  split at h
  · split at h
    · next hvalid =>
      obtain ⟨hsecond, hnano⟩ := ofParts?_eq_some h
      have hclock := t.secondOfDay_lt
      have hdate : u.date = t.date.addMonths months := by
        rw [date, hsecond, show ((t.date.addMonths months).toDays * 86400 + t.secondOfDay) / 86400 =
          (t.date.addMonths months).toDays by omega, Date.ofDays_toDays hvalid]
      refine ⟨?_, ?_, ?_, hnano⟩
      · rw [hdate, Date.index_addMonths]
      · rw [hdate]
        rfl
      · rw [secondOfDay, hsecond]
        omega
    · cases h
  · cases h

/-! ## Years -/

/-- An instant is in a year or a later one from the first second of the year on. -/
theorem le_year_iff {year : Int} : year ≤ t.date.year ↔
    (Date.daysBeforeYear year - Date.daysBeforeYear 1970) * 86400 ≤ t.second := by
  have hyear : t.date.year = Date.yearOfDay (t.second / 86400 + Date.daysBeforeYear 1970) := rfl
  rw [hyear, Date.le_yearOfDay_iff]
  omega

/-! ## Sums that leave the calendar -/

theorem ofParts?_eq_none_iff {second : Int} {nano : Nat} (hmin : minSecond ≤ second)
    (hnano : nano < 2000000000) (hleap : 1000000000 ≤ nano → second % 60 = 59) :
    ofParts? second nano = none ↔ maxSecond < second := by
  unfold ofParts?
  split
  · next hparts =>
    simp only [reduceCtorEq, false_iff, Int.not_lt]
    exact hparts.2.1
  · next hparts =>
    simp only [true_iff]
    by_contra hle
    exact hparts ⟨hmin, Int.not_lt.1 hle, hnano, hleap⟩

/-- Some seconds later the clock shows the same fraction of a second; only no time at all keeps it in a
leap second. -/
theorem add?_seconds (t : Instant) (seconds : Nat) : t.add? (seconds * 1000000000) =
    ofParts? (t.second + seconds) (if seconds = 0 then t.nano else t.nano % 1000000000) := by
  have hseconds : ((seconds : Int) * 1000000000).tdiv 1000000000 = seconds := by
    rw [Int.tdiv_eq_ediv_of_nonneg (by omega)]
    omega
  have hnanos : ((seconds : Int) * 1000000000).tmod 1000000000 = 0 := by
    rw [Int.tmod_eq_emod_of_nonneg (by omega)]
    omega
  have hleap : t.isLeap ↔ 1000000000 ≤ t.nano := by simp [isLeap]
  unfold add?
  simp only [hseconds, hnanos, Int.lt_irrefl, false_and, or_false, Int.add_zero]
  by_cases hstays : t.isLeap ∧ ¬ (0 : Int) < seconds ∧ (seconds : Int) = 0
  · -- The sum is the same leap second.
    obtain rfl : seconds = 0 := by omega
    rw [if_pos hstays, if_pos rfl, Int.toNat_natCast]
    congr 1
    omega
  · rw [if_neg hstays]
    have hbase : (if t.isLeap then
        (if (0 : Int) < seconds then t.second else t.second + 1) * 1000000000 +
          ((t.nano : Int) - 1000000000)
        else t.second * 1000000000 + t.nano) + (seconds : Int) * 1000000000 =
        (t.second + seconds) * 1000000000 + ((t.nano % 1000000000 : Nat) : Int) := by
      have hnano := t.nano_lt
      split
      · next hl =>
        have hforward : (0 : Int) < seconds := by
          by_contra hzero
          exact hstays ⟨hl, hzero, by omega⟩
        rw [if_pos hforward]
        rw [hleap] at hl
        omega
      · next hl =>
        rw [hleap] at hl
        omega
    have hnano : (if seconds = 0 then t.nano else t.nano % 1000000000) = t.nano % 1000000000 := by
      split
      · next hzero =>
        have hplain : ¬ 1000000000 ≤ t.nano := fun hl => hstays ⟨hleap.2 hl, by omega, by omega⟩
        omega
      · rfl
    rw [hbase, hnano]
    congr 1 <;> omega

theorem add?_eq_none_iff (t : Instant) (seconds : Nat) :
    t.add? (seconds * 1000000000) = none ↔ maxSecond < t.second + seconds := by
  have hmin := t.min_le
  have hnano := t.nano_lt
  have hleap := t.leap
  rw [add?_seconds, ofParts?_eq_none_iff (by omega) (by split <;> omega)]
  split
  · intro hl
    omega
  · intro hl
    omega

/-! ## Whole days -/

/-- A quotient that is rounded toward zero exceeds a number from zero on when the next number fits. -/
theorem lt_tdiv_iff {a c n : Int} (hc : 0 < c) (hn : 0 ≤ n) : n < a.tdiv c ↔ (n + 1) * c ≤ a := by
  rcases Int.le_total 0 a with hpos | hneg
  · rw [Int.tdiv_eq_ediv_of_nonneg hpos]
    exact Int.le_ediv_iff_mul_le hc
  · have hle : a.tdiv c ≤ 0 := Int.zero_tdiv c ▸ Int.tdiv_le_tdiv hc hneg
    have hlarge : 0 < (n + 1) * c := Int.mul_pos (by omega) hc
    omega

theorem lt_wholeDays_iff (ns : Int) {days : Int} (h : 0 ≤ days) :
    days < (ns.tdiv 1000000000).tdiv 86400 ↔ (days + 1) * 86400000000000 ≤ ns := by
  rw [lt_tdiv_iff (by decide) h, ← Int.sub_one_lt_iff, lt_tdiv_iff (by decide) (by omega)]
  omega

/-- More than some whole days are left when one more fits. -/
theorem lt_daysSince_iff {days : Int} (h : 0 ≤ days) :
    days < t.daysSince u ↔ (days + 1) * nanosPerDay ≤ t.since u :=
  lt_wholeDays_iff _ h

/-- What lies more whole days ahead than are added is later than the sum, also by milliseconds. -/
theorem toMillis_lt_of_lt_daysSince {later : Instant} {days : Int} (h : 0 ≤ days)
    (hsum : t.addDays? days = some u) (hdays : days < later.daysSince t) :
    u.toMillis < later.toMillis := by
  obtain ⟨n, rfl⟩ := Int.eq_ofNat_of_zero_le h
  have hnanos : (n : Int) * nanosPerDay = ((86400 * n : Nat) : Int) * 1000000000 := by
    unfold nanosPerDay
    omega
  rw [addDays?, hnanos, add?_seconds] at hsum
  obtain ⟨hsecond, hnano⟩ := ofParts?_eq_some hsum
  have hle : u.nano ≤ t.nano := by
    rw [hnano]
    split
    · exact Nat.le_refl _
    · exact Nat.mod_le ..
  obtain ⟨ns, hns⟩ : ∃ ns : Int, ns = later.since t := ⟨_, rfl⟩
  have hnanos : ((n : Int) + 1) * 86400000000000 ≤ ns := hns ▸ (lt_daysSince_iff h).1 hdays
  have hcounted : ns ≤ (later.second - t.second + 1) * 1000000000 + ((later.nano : Int) - t.nano) := by
    rw [hns, since]
    split
    · exact Int.le_refl _
    · split <;> exact Int.add_le_add_right (Int.mul_le_mul_of_nonneg_right (by omega) (by omega)) _
  show u.second * 1000 + (u.nano / 1000000 : Nat) < later.second * 1000 + (later.nano / 1000000 : Nat)
  omega

/-! ## Instants that can be read back -/

/-- The last millisecond at which there is an instant. -/
def lastMillis : Int := maxSecond * 1000 + 999

/-- The instants that are found for milliseconds are those of the calendar. -/
theorem exists_ofMillis_iff {ms : Int} :
    (∃ t, ofMillis ms = .ok t) ↔ minSecond * 1000 ≤ ms ∧ ms ≤ lastMillis := by
  unfold ofMillis ofMillis? ofParts? lastMillis
  constructor
  · rintro ⟨t, h⟩
    split at h
    · next ht =>
      split at ht
      · next hparts => omega
      · cases ht
    · cases h
  · rintro ⟨hmin, hmax⟩
    rw [dif_pos ⟨by omega, by omega, by omega, by omega⟩]
    exact ⟨_, rfl⟩

/-- What the store keeps of the instant can be read back. -/
def Readable (t : Instant) : Prop := ∃ u, ofMillis t.toMillis = .ok u

theorem minSecond_le_toMillis (t : Instant) : minSecond * 1000 ≤ t.toMillis := by
  have hmin := t.min_le
  show minSecond * 1000 ≤ t.second * 1000 + (t.nano / 1000000 : Nat)
  omega

theorem readable_iff_toMillis : t.Readable ↔ t.toMillis ≤ lastMillis :=
  exists_ofMillis_iff.trans (and_iff_right t.minSecond_le_toMillis)

theorem readable_iff : t.Readable ↔ ¬ (t.isLeap ∧ t.second = maxSecond) := by
  have hnano := t.nano_lt
  have hmax := t.le_max
  have hmillis : t.toMillis ≤ lastMillis ↔
      t.second * 1000 + (t.nano / 1000000 : Nat) ≤ maxSecond * 1000 + 999 := Iff.rfl
  rw [readable_iff_toMillis, hmillis]
  simp only [isLeap, decide_eq_true_eq]
  -- The milliseconds of a leap second reach into the next one.
  omega

instance (t : Instant) : Decidable t.Readable := decidable_of_iff' _ readable_iff

/-- An instant at least a second before another can be read back. -/
theorem readable_of_add? {d : Int} (hd : 1000000000 ≤ d) (h : t.add? d = some u) :
    t.Readable := by
  rw [readable_iff]
  rintro ⟨hleap, hlast⟩
  have hforward : 0 < d.tdiv 1000000000 := by
    rw [Int.tdiv_eq_ediv_of_nonneg (by omega)]
    omega
  have hnano : 1000000000 ≤ t.nano := by simpa [isLeap] using hleap
  unfold add? at h
  simp only [hleap, hforward, true_or, not_true_eq_false, false_and, and_false, if_false, if_true] at h
  have hsecond := (ofParts?_eq_some h).1
  have := u.le_max
  omega

theorem ofMillis_eq_ok {ms : Millis} (h : ofMillis ms = .ok t) :
    t.second = ms / 1000 ∧ t.nano = (ms % 1000).toNat * 1000000 := by
  unfold ofMillis at h
  split at h
  · next ht =>
    cases h
    exact ofParts?_eq_some ht
  · cases h

theorem toMillis_of_ofMillis {ms : Millis} (h : ofMillis ms = .ok t) : t.toMillis = ms := by
  obtain ⟨hsecond, hnano⟩ := ofMillis_eq_ok h
  show t.second * 1000 + ((t.nano / 1000000 : Nat) : Int) = ms
  rw [hsecond, hnano, Nat.mul_div_cancel _ (by decide),
    Int.toNat_of_nonneg (Int.emod_nonneg ms (by decide)), Int.ediv_mul_add_emod]

/-- An instant that was kept is later than all that are earlier by milliseconds. -/
theorem not_le_of_toMillis_lt {ms : Millis} (h : ofMillis ms = .ok u) (hlt : t.toMillis < ms) :
    ¬ u ≤ t := by
  obtain ⟨hsecond, hnano⟩ := ofMillis_eq_ok h
  obtain ⟨m, hm⟩ : ∃ m : Int, m = ms := ⟨_, rfl⟩
  have hmillis : t.second * 1000 + (t.nano / 1000000 : Nat) < m := hm ▸ hlt
  rw [← hm] at hsecond hnano
  rintro (hbefore | ⟨hsame, hle⟩) <;> omega

/-! ## Instants on the scale of the store -/

/-- The store keeps the instant to the last digit: a whole millisecond outside of leap seconds. -/
def OnScale (t : Instant) : Prop := t.nano % 1000000 = 0 ∧ t.isLeap = false

instance (t : Instant) : Decidable t.OnScale := inferInstanceAs (Decidable (_ ∧ _))

namespace OnScale

theorem nano_lt (h : t.OnScale) : t.nano < 1000000000 := by
  have hplain := h.2
  unfold isLeap at hplain
  simpa using hplain

/-- On the scale instants are ordered as their milliseconds are. -/
theorem toMillis_le_iff (ht : t.OnScale) (hu : u.OnScale) : t.toMillis ≤ u.toMillis ↔ t ≤ u := by
  have ht' := ht.nano_lt
  have hu' := hu.nano_lt
  have hround := hu.1
  show t.second * 1000 + (t.nano / 1000000 : Nat) ≤ u.second * 1000 + (u.nano / 1000000 : Nat) ↔
    t.second < u.second ∨ (t.second = u.second ∧ t.nano ≤ u.nano)
  have hround' := ht.1
  omega

theorem toMillis_lt_iff (ht : t.OnScale) (hu : u.OnScale) : t.toMillis < u.toMillis ↔ t < u := by
  have ht' := ht.nano_lt
  have hu' := hu.nano_lt
  have hround := ht.1
  have hround' := hu.1
  show t.second * 1000 + (t.nano / 1000000 : Nat) < u.second * 1000 + (u.nano / 1000000 : Nat) ↔
    t.second < u.second ∨ (t.second = u.second ∧ t.nano < u.nano)
  omega

/-- The next millisecond, as there is a later instant. -/
theorem exists_next (ht : t.OnScale) (hu : u.OnScale) (h : t < u) :
    ∃ next, t.addMillis? 1 = some next ∧ next.OnScale ∧ next.toMillis = t.toMillis + 1 := by
  have hlater : t.second * 1000 + (t.nano / 1000000 : Nat) <
      u.second * 1000 + (u.nano / 1000000 : Nat) := (toMillis_lt_iff ht hu).2 h
  have hnano := ht.nano_lt
  have hnano' := hu.nano_lt
  have hround := ht.1
  have hmin := t.min_le
  have hmax := u.le_max
  obtain ⟨total, htotal⟩ : ∃ total : Int, total = t.second * 1000000000 + t.nano + 1000000 := ⟨_, rfl⟩
  have hadd : t.addMillis? 1 = ofParts? (total / 1000000000) (total % 1000000000).toNat := by
    unfold addMillis? add?
    simp only [ht.2, Bool.false_eq_true, false_and, if_false]
    rw [htotal]
    rfl
  have hparts : minSecond ≤ total / 1000000000 ∧ total / 1000000000 ≤ maxSecond ∧
      (total % 1000000000).toNat < 2000000000 ∧
      (1000000000 ≤ (total % 1000000000).toNat → total / 1000000000 % 60 = 59) := by
    omega
  unfold ofParts? at hadd
  rw [dif_pos hparts] at hadd
  refine ⟨_, hadd, ⟨?_, ?_⟩, ?_⟩
  · show (total % 1000000000).toNat % 1000000 = 0
    omega
  · simp only [isLeap, decide_eq_false_iff_not]
    omega
  · show total / 1000000000 * 1000 + (((total % 1000000000).toNat / 1000000 : Nat) : Int) =
      t.second * 1000 + (t.nano / 1000000 : Nat) + 1
    omega

end OnScale

end FolioLedger.Instant
