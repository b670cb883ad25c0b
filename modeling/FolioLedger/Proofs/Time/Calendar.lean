import FolioLedger.Time.Calendar
import Mathlib.Order.Monotone.Basic

/-!
# Days and months

`Date.ofDays` gives the date of a day (`Date.ofDays_spec`), and a date some months later is later
(`Date.toDays_lt_addMonths`).  The start of a year is compared with the mean length of a year, which
is the same in every cycle of 400 years; months are counted through from one year to the next.
-/

namespace FolioLedger.Date

/-! ## Years -/

theorem daysBeforeYear_add_cycles (cycles year : Int) :
    daysBeforeYear (400 * cycles + year) = 146097 * cycles + daysBeforeYear year := by
  unfold daysBeforeYear
  omega

/-- How far the start of a year is off the mean length of a year, in the first cycle. -/
theorem daysBeforeYear_bounds_of_lt (year : Fin 400) :
    146097 * (year : Int) - 288 ≤ 400 * daysBeforeYear (year : Nat) ∧
      400 * daysBeforeYear (year : Nat) ≤ 146097 * (year : Int) + 591 := by
  revert year
  decide +kernel

/-- How far the start of a year is off the mean length of a year. -/
theorem daysBeforeYear_bounds (year : Int) :
    146097 * year - 288 ≤ 400 * daysBeforeYear year ∧
      400 * daysBeforeYear year ≤ 146097 * year + 591 := by
  have hsplit : year = 400 * (year / 400) + ((year % 400).toNat : Int) := by omega
  have hcycle := daysBeforeYear_add_cycles (year / 400) (year % 400).toNat
  have hfirst := daysBeforeYear_bounds_of_lt ⟨(year % 400).toNat, by omega⟩
  rw [← hsplit] at hcycle
  simp only at hfirst
  omega

theorem yearOfDay_bounds (day : Int) :
    daysBeforeYear (yearOfDay day) ≤ day ∧ day < daysBeforeYear (yearOfDay day + 1) := by
  -- By these bounds the guess is the year of the day or the year before it.
  have h0 := daysBeforeYear_bounds ((400 * day - 600) / 146097)
  have h2 := daysBeforeYear_bounds ((400 * day - 600) / 146097 + 2)
  unfold yearOfDay
  simp only
  split
  · omega
  · split
    · next hnext =>
      rw [Int.add_assoc, show (1 : Int) + 1 = 2 from rfl]
      omega
    · omega

theorem daysBeforeYear_mono {year later : Int} (h : year ≤ later) :
    daysBeforeYear year ≤ daysBeforeYear later := by
  unfold daysBeforeYear
  omega

theorem le_yearOfDay_iff {year day : Int} : year ≤ yearOfDay day ↔ daysBeforeYear year ≤ day := by
  obtain ⟨hstart, hend⟩ := yearOfDay_bounds day
  constructor
  · intro hle
    have := daysBeforeYear_mono hle
    omega
  · intro hle
    by_contra hlt
    have := daysBeforeYear_mono (show yearOfDay day + 1 ≤ year by omega)
    omega

/-! ## Months -/

theorem daysBeforeMonth_succ (year : Int) {month : Nat} (h : 1 ≤ month) :
    daysBeforeMonth year (month + 1) = daysBeforeMonth year month + daysInMonth year month := by
  cases month with
  | zero => omega
  | succ month => rfl

theorem daysBeforeMonth_mono (year : Int) : Monotone (daysBeforeMonth year) := by
  refine monotone_nat_of_le_succ fun month => ?_
  cases month with
  | zero => exact Nat.le_refl _
  | succ month =>
    rw [daysBeforeMonth_succ year (Nat.le_add_left 1 month)]
    exact Nat.le_add_right ..

theorem daysInMonth_pos (year : Int) (month : Nat) : 1 ≤ daysInMonth year month := by
  unfold daysInMonth
  repeat' split
  all_goals omega

/-- After the twelfth month the next year starts. -/
theorem daysBeforeYear_succ (year : Int) :
    daysBeforeYear (year + 1) = daysBeforeYear year + daysBeforeMonth year 13 := by
  have hmonths : daysBeforeMonth year 13 = if isLeapYear year then 366 else 365 := by
    simp [daysBeforeMonth, daysInMonth]
    split <;> rfl
  rw [hmonths]
  unfold daysBeforeYear isLeapYear
  split <;> simp_all <;> omega

/-- The number of the months that start by a day of the year is that of the month that holds it. -/
theorem month_bounds (year : Int) (day count : Nat) :
    ∃ month, ((List.range' 1 (count + 1)).filter (daysBeforeMonth year · ≤ day)).length = month ∧
      1 ≤ month ∧ month ≤ count + 1 ∧ daysBeforeMonth year month ≤ day ∧
      (day < daysBeforeMonth year (count + 2) → day < daysBeforeMonth year (month + 1)) := by
  induction count with
  | zero => exact ⟨1, by simp [daysBeforeMonth], by omega, by omega, by simp [daysBeforeMonth], id⟩
  | succ count ih =>
    obtain ⟨month, hmonth, hpos, hle, hstart, hend⟩ := ih
    rw [List.range'_1_concat, List.filter_append, List.length_append, hmonth,
      show 1 + (count + 1) = count + 2 by omega]
    by_cases hnext : daysBeforeMonth year (count + 2) ≤ day
    · -- So every month before it had started, too.
      have hall : month = count + 1 := by
        rw [← hmonth, List.filter_eq_self.2, List.length_range']
        intro n hn
        have hmono := daysBeforeMonth_mono year (show n ≤ count + 2 by
          have := List.mem_range'_1.1 hn
          omega)
        simpa using hmono.trans hnext
      exact ⟨count + 2, by simp [hall, hnext], by omega, by omega, hnext, id⟩
    · exact ⟨month, by simp [hnext], hpos, by omega, hstart, fun _ => hend (by omega)⟩

/-! ## From days to dates and back -/

/-- The date of a day is there, and it is the date of that day. -/
theorem ofDays_spec (days : Int) : (ofDays days).isValid ∧ (ofDays days).toDays = days := by
  obtain ⟨hstart, hend⟩ := yearOfDay_bounds (days + daysBeforeYear 1970)
  rw [daysBeforeYear_succ] at hend
  obtain ⟨month, hmonth, hpos, hle, hfirst, hlast⟩ :=
    month_bounds (yearOfDay (days + daysBeforeYear 1970)) (days + daysBeforeYear 1970 -
      daysBeforeYear (yearOfDay (days + daysBeforeYear 1970))).toNat 11
  replace hlast := hlast (show _ < daysBeforeMonth _ 13 by omega)
  rw [daysBeforeMonth_succ _ hpos] at hlast
  refine ⟨?_, ?_⟩
  · simp only [isValid, ofDays, hmonth, Bool.and_eq_true, decide_eq_true_eq]
    omega
  · simp only [toDays, ofDays, hmonth]
    omega

/-! ## Months later -/

/-- The number of a date's month, counting months from the year 0 on. -/
def index (d : Date) : Int := 12 * d.year + d.month - 1

/-- The days before the month with a number. -/
def daysBeforeNth (index : Int) : Int :=
  daysBeforeYear (index / 12) + daysBeforeMonth (index / 12) ((index % 12).toNat + 1)

theorem daysBeforeNth_succ (index : Int) : daysBeforeNth (index + 1) =
    daysBeforeNth index + daysInMonth (index / 12) ((index % 12).toNat + 1) := by
  unfold daysBeforeNth
  have hmonth := daysBeforeMonth_succ (index / 12) (Nat.le_add_left 1 (index % 12).toNat)
  by_cases hlast : (index % 12).toNat = 11
  · have hyear := daysBeforeYear_succ (index / 12)
    have hfirst : daysBeforeMonth (index / 12 + 1) (0 + 1) = 0 := rfl
    rw [hlast] at hmonth ⊢
    rw [show (index + 1) / 12 = index / 12 + 1 by omega,
      show ((index + 1) % 12).toNat = 0 by omega, hyear, hfirst, hmonth]
    omega
  · rw [show (index + 1) / 12 = index / 12 by omega,
      show ((index + 1) % 12).toNat = (index % 12).toNat + 1 by omega, hmonth]
    omega

theorem daysBeforeNth_mono {index later : Int} (h : index ≤ later) :
    daysBeforeNth index ≤ daysBeforeNth later := by
  have hmono : Monotone daysBeforeNth := by
    refine monotone_int_of_le_succ fun index => ?_
    rw [daysBeforeNth_succ]
    omega
  exact hmono h

section Months

variable {d : Date} (hfirst : 1 ≤ d.month) (hlast : d.month ≤ 12)

include hfirst hlast in
theorem toDays_eq_daysBeforeNth :
    d.toDays = daysBeforeNth d.index + d.day - 1 - daysBeforeYear 1970 := by
  unfold toDays daysBeforeNth index
  rw [show (12 * d.year + d.month - 1) / 12 = d.year by omega,
    show ((12 * d.year + d.month - 1) % 12).toNat + 1 = d.month by omega]

include hfirst hlast in
theorem daysBeforeNth_index_succ :
    daysBeforeNth (d.index + 1) = daysBeforeNth d.index + daysInMonth d.year d.month := by
  rw [daysBeforeNth_succ, index, show (12 * d.year + (d.month : Int) - 1) / 12 = d.year by omega,
    show ((12 * d.year + (d.month : Int) - 1) % 12).toNat + 1 = d.month by omega]

end Months

/-- No two dates are on the same day. -/
theorem toDays_inj {d e : Date} (hd : d.isValid) (he : e.isValid) : d.toDays = e.toDays ↔ d = e := by
  refine ⟨fun h => ?_, fun h => h ▸ rfl⟩
  simp only [isValid, Bool.and_eq_true, decide_eq_true_eq] at hd he
  obtain ⟨⟨⟨hfirst, hlast⟩, hday⟩, hdays⟩ := hd
  obtain ⟨⟨⟨hfirst', hlast'⟩, hday'⟩, hdays'⟩ := he
  rw [toDays_eq_daysBeforeNth hfirst hlast, toDays_eq_daysBeforeNth hfirst' hlast'] at h
  have hnext := daysBeforeNth_index_succ hfirst hlast
  have hnext' := daysBeforeNth_index_succ hfirst' hlast'
  -- A date of an earlier month lies before the end of that month.
  have hindex : d.index = e.index := by
    rcases Int.lt_trichotomy d.index e.index with hlt | heq | hgt
    · have hmono := daysBeforeNth_mono (show d.index + 1 ≤ e.index by omega)
      omega
    · exact heq
    · have hmono := daysBeforeNth_mono (show e.index + 1 ≤ d.index by omega)
      omega
  rw [hindex] at h
  obtain ⟨year, month, day⟩ := d
  obtain ⟨year', month', day'⟩ := e
  simp only [index] at hindex
  simp only at hfirst hlast hfirst' hlast' h
  obtain rfl : year = year' := by omega
  obtain rfl : month = month' := by omega
  obtain rfl : day = day' := by omega
  rfl

/-- The date of a date's day is the date. -/
theorem ofDays_toDays {d : Date} (h : d.isValid) : ofDays d.toDays = d := by
  obtain ⟨hvalid, hdays⟩ := ofDays_spec d.toDays
  exact (toDays_inj hvalid h).1 hdays

theorem addMonths_month (d : Date) (months : Nat) :
    1 ≤ (d.addMonths months).month ∧ (d.addMonths months).month ≤ 12 := by
  simp only [addMonths]
  omega

theorem index_addMonths (d : Date) (months : Nat) : (d.addMonths months).index = d.index + months := by
  simp only [addMonths, index]
  omega

/-- A date that is there lies before the same day of any later month. -/
theorem toDays_lt_addMonths {d : Date} (h : d.isValid) {months : Nat} (hmonths : 1 ≤ months) :
    d.toDays < (d.addMonths months).toDays := by
  simp only [isValid, Bool.and_eq_true, decide_eq_true_eq] at h
  obtain ⟨⟨⟨hfirst, hlast⟩, hday⟩, hdays⟩ := h
  obtain ⟨hfirst', hlast'⟩ := d.addMonths_month months
  have hnext := daysBeforeNth_index_succ hfirst hlast
  have hlater := daysBeforeNth_mono (show d.index + 1 ≤ d.index + months by omega)
  have hday' : 1 ≤ (d.addMonths months).day := by
    simp only [addMonths]
    exact Nat.le_min.2 ⟨hday, daysInMonth_pos _ _⟩
  rw [toDays_eq_daysBeforeNth hfirst hlast, toDays_eq_daysBeforeNth hfirst' hlast', index_addMonths]
  omega

end FolioLedger.Date
