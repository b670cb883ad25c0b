import FolioLedger.Proofs.Text.Numeral
import FolioLedger.Proofs.Time.Instant
import FolioLedger.Time.Printer

/-!
# Written instants can be told apart

A number is told by its digits (`Numeral.padded_inj`), and digits stand between separators that are no
digits, so a text is split at its last separator (`append_separator_inj`).  Taken apart so, the written
form of an instant in whole seconds gives its second, and whether it lies in a leap second
(`Instant.renderSeconds_inj`).
-/

namespace FolioLedger

/-- A list is split at a separator once it is known how many come before. -/
theorem append_cons_inj_of_count {c : Char} {x x' z z' : List Char} (h : x ++ c :: z = x' ++ c :: z')
    (hcount : x.count c = x'.count c) : x = x' ∧ z = z' := by
  have hnil : ∀ {between w w' : List Char}, c :: w = between ++ c :: w' →
      between.count c = 0 → between = [] := by
    intro between w w' hsplit hzero
    cases between with
    | nil => rfl
    | cons d between =>
      rw [← List.head_eq_of_cons_eq hsplit, List.count_cons_self] at hzero
      cases hzero
  rcases List.append_eq_append_iff.1 h with ⟨between, rfl, hrest⟩ | ⟨between, rfl, hrest⟩ <;>
    rw [List.count_append] at hcount
  · obtain rfl := hnil hrest (by omega)
    exact ⟨(List.append_nil x).symm, List.tail_eq_of_cons_eq hrest⟩
  · obtain rfl := hnil hrest (by omega)
    exact ⟨List.append_nil x', (List.tail_eq_of_cons_eq hrest).symm⟩

theorem append_cons_inj {c : Char} {x x' z z' : List Char} (hz : c ∉ z) (hz' : c ∉ z') :
    x ++ c :: z = x' ++ c :: z' ↔ x = x' ∧ z = z' := by
  constructor
  · intro h
    have hcount : x.count c = x'.count c := by
      have hall := congrArg (List.count c) h
      simpa [List.count_eq_zero_of_not_mem hz, List.count_eq_zero_of_not_mem hz'] using hall
    exact append_cons_inj_of_count h hcount
  · rintro ⟨rfl, rfl⟩
    rfl

/-- Two texts are equal if they are equal before and after the last separator. -/
theorem append_separator_inj {sep : String} {c : Char} (hsep : sep.toList = [c])
    {x x' z z' : String} (hz : c ∉ z.toList) (hz' : c ∉ z'.toList) :
    x ++ sep ++ z = x' ++ sep ++ z' ↔ x = x' ∧ z = z' := by
  have hpieces : x.toList ++ c :: z.toList = x'.toList ++ c :: z'.toList ↔
      x.toList = x'.toList ∧ z.toList = z'.toList := append_cons_inj hz hz'
  rw [String.toList_inj, String.toList_inj] at hpieces
  rw [← hpieces, ← String.toList_inj]
  simp only [String.toList_append, hsep, List.append_assoc, List.singleton_append]

open Numeral

/-! ## Dates -/

namespace Date

theorem dash_mem_renderYear {year : Int} : '-' ∈ (renderYear year).toList ↔ year < 0 := by
  have hdash := notMem_padded (c := '-') (by decide) 4
  unfold renderYear
  split
  · next hplain => exact ⟨fun hmem => absurd hmem (hdash _), fun hneg => by omega⟩
  · split
    · next hneg => simp [hneg]
    · next hneg => simp [hdash, hneg]

theorem plus_mem_renderYear {year : Int} : '+' ∈ (renderYear year).toList ↔ 9999 < year := by
  have hplus := notMem_padded (c := '+') (by decide) 4
  unfold renderYear
  split
  · next hplain => exact ⟨fun hmem => absurd hmem (hplus _), fun hlate => by omega⟩
  · next hsigned =>
    split
    · next hneg =>
      have hearly : ¬ 9999 < year := by omega
      simp [hplus, hearly]
    · next hneg =>
      have hlate : 9999 < year := by omega
      simp [hlate]

theorem renderYear_inj {year year' : Int} : renderYear year = renderYear year' ↔ year = year' := by
  constructor
  · intro h
    -- The signs say whether either year is before 0 or after 9999.
    have hbefore : year < 0 ↔ year' < 0 := by
      rw [← dash_mem_renderYear, h, dash_mem_renderYear]
    have hlate : 9999 < year ↔ 9999 < year' := by
      rw [← plus_mem_renderYear, h, plus_mem_renderYear]
    unfold renderYear at h
    by_cases hneg : year < 0
    · rw [if_neg (by omega), if_pos hneg, if_neg (by omega), if_pos (hbefore.1 hneg)] at h
      have hsame := padded_inj.1 (String.append_right_inj _ |>.1 h)
      omega
    · by_cases hbig : 9999 < year
      · rw [if_neg (by omega), if_neg hneg, if_neg (by omega), if_neg (by omega)] at h
        have hsame := padded_inj.1 (String.append_right_inj _ |>.1 h)
        omega
      · rw [if_pos (by omega), if_pos (by omega)] at h
        have hsame := padded_inj.1 h
        omega
  · rintro rfl
    rfl

theorem render_inj {d d' : Date} : d.render = d'.render ↔ d = d' := by
  obtain ⟨year, month, day⟩ := d
  obtain ⟨year', month', day'⟩ := d'
  have hdash := notMem_padded (c := '-') (by decide) 2
  unfold render
  rw [append_separator_inj (c := '-') (by decide) (hdash _) (hdash _),
    append_separator_inj (c := '-') (by decide) (hdash _) (hdash _), renderYear_inj, padded_inj,
    padded_inj, and_assoc, Date.mk.injEq]

theorem ofDays_inj {days days' : Int} : ofDays days = ofDays days' ↔ days = days' := by
  constructor
  · intro h
    rw [← (ofDays_spec days).2, h, (ofDays_spec days').2]
  · rintro rfl
    rfl

end Date

/-! ## Instants -/

namespace Instant

variable {t u : Instant}

theorem notMem_renderClock {c : Char} (hdigit : c.isDigit = false) (hcolon : c ≠ ':') (t : Instant) :
    c ∉ t.renderClock.toList := by
  have hnot := notMem_padded hdigit 2
  unfold renderClock renderMinute
  simp [hnot, hcolon]

/-- A leap second is counted as second 60, and only then. -/
theorem isLeap_iff (t : Instant) : t.nano / 1000000000 ≤ 1 ∧
    (t.isLeap = true ↔ t.nano / 1000000000 = 1) ∧
    (t.nano / 1000000000 = 1 → t.secondOfDay % 60 = 59) := by
  have hlt := t.nano_lt
  have hleap := t.leap
  unfold isLeap secondOfDay
  rw [decide_eq_true_eq]
  omega

theorem renderClock_inj : t.renderClock = u.renderClock ↔
    t.secondOfDay = u.secondOfDay ∧ t.isLeap = u.isLeap := by
  have hcolon := notMem_padded (c := ':') (by decide) 2
  obtain ⟨ht, htleap, htlast⟩ := t.isLeap_iff
  obtain ⟨hu, huleap, hulast⟩ := u.isLeap_iff
  unfold renderClock renderMinute
  rw [append_separator_inj (c := ':') (by decide) (hcolon _) (hcolon _),
    append_separator_inj (c := ':') (by decide) (hcolon _) (hcolon _), padded_inj, padded_inj,
    padded_inj, Bool.eq_iff_iff, htleap, huleap]
  omega

/-- Written in whole seconds, two instants look alike if they lie in the same second. -/
theorem renderSeconds_inj : t.renderSeconds = u.renderSeconds ↔
    t.second = u.second ∧ t.isLeap = u.isLeap := by
  have hclock := notMem_renderClock (c := 'T') (by decide) (by decide)
  unfold renderSeconds
  rw [String.append_left_inj, append_separator_inj (c := 'T') (by decide) (hclock _) (hclock _),
    Date.render_inj, renderClock_inj, date, date, Date.ofDays_inj]
  unfold secondOfDay
  constructor
  · rintro ⟨hday, hsecond, hleap⟩
    exact ⟨by omega, hleap⟩
  · rintro ⟨hsecond, hleap⟩
    rw [hsecond]
    exact ⟨rfl, rfl, hleap⟩

end Instant

end FolioLedger
