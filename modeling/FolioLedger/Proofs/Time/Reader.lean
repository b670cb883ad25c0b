import FolioLedger.Proofs.Time.Printer
import FolioLedger.Time.Reader

/-!
# Written instants are read back

The reader of documents takes the form of documents apart again: the date with its signed year, the
clock with second 60 for a leap second, and a fraction of as many digits as it was given
(`Instant.read?_render`, and `Instant.read?_renderOffset` for the form with a numeric offset).
-/

namespace FolioLedger

open Numeral

/-! ## Pieces -/

theorem not_isBlankChar_of_isDigit {c : Char} (h : c.isDigit = true) : isBlankChar c = false := by
  have hrange : 48 ≤ c.toNat ∧ c.toNat ≤ 57 := by
    simpa [Char.isDigit, UInt32.le_iff_toNat_le] using h
  unfold isBlankChar
  simp only [Bool.or_eq_false_iff, Bool.and_eq_false_iff, decide_eq_false_iff_not,
    beq_eq_false_iff_ne]
  omega

theorem dropBlanks_of_head {cs : List Char} (h : ∀ c ∈ cs.head?, isBlankChar c = false) :
    dropBlanks cs = cs := by
  cases cs with
  | nil => rfl
  | cons c cs => exact List.dropWhile_cons_of_neg (by simp [h c rfl])

/-- A padded number starts with a digit. -/
theorem Numeral.exists_padded_eq (width n : Nat) :
    ∃ c digits, (padded width n).toList = c :: digits ∧ c.isDigit = true := by
  obtain ⟨c, digits, h⟩ := List.exists_cons_of_ne_nil (padded_ne_nil width n)
  exact ⟨c, digits, h, isDigit_of_mem_padded (h ▸ List.mem_cons_self)⟩

theorem dropBlanks_of_isDigit {c : Char} (h : c.isDigit = true) (rest : List Char) :
    dropBlanks (c :: rest) = c :: rest := by
  refine dropBlanks_of_head fun d hd => ?_
  obtain rfl : c = d := by simpa using hd
  exact not_isBlankChar_of_isDigit h

theorem dropBlanks_padded (width n : Nat) (rest : List Char) :
    dropBlanks ((padded width n).toList ++ rest) = (padded width n).toList ++ rest := by
  obtain ⟨c, digits, h, hdigit⟩ := exists_padded_eq width n
  rw [h]
  exact dropBlanks_of_isDigit hdigit _

namespace Timestamp

theorem short?_padded {n : Nat} (h : n < 100) (rest : List Char) :
    short? ((padded 2 n).toList ++ rest) = some (n, rest) := by
  unfold short?
  rw [dropBlanks_padded, read?_padded (by decide) (by decide) h]

theorem noDigit_cons {c : Char} (h : c.isDigit = false) (rest : List Char) :
    NoDigit (c :: rest) := by
  intro d hd
  obtain rfl : c = d := by simpa using hd
  exact h

theorem year?_renderYear (year : Int) (rest : List Char) :
    year? ((Date.renderYear year).toList ++ '-' :: rest) = some (year, '-' :: rest) := by
  have hsigned : ∀ n, Numeral.read? 1 ((padded 4 n).toList ++ '-' :: rest).length
      ((padded 4 n).toList ++ '-' :: rest) = some (n, '-' :: rest) := fun n =>
    read?_padded_of_follow (by simp) (noDigit_cons (by decide) rest)
  unfold Date.renderYear year?
  by_cases hplain : 0 ≤ year ∧ year ≤ 9999
  · rw [if_pos hplain, dropBlanks_padded]
    have hread : Numeral.read? 1 4 ((padded 4 year.toNat).toList ++ '-' :: rest) =
        some (year.toNat, '-' :: rest) :=
      read?_padded (by decide) (by decide) (by omega) _
    obtain ⟨c, digits, hdigits, hdigit⟩ := exists_padded_eq 4 year.toNat
    rw [hdigits, List.cons_append] at hread ⊢
    split
    · next heq =>
      cases heq
      cases hdigit
    · next heq =>
      cases heq
      cases hdigit
    · simp only [hread, Option.map_some, Int.toNat_of_nonneg hplain.1]
  · rw [if_neg hplain]
    by_cases hneg : year < 0
    · have hyear : -(((-year).toNat : Nat) : Int) = year := by omega
      rw [if_pos hneg, String.toList_append]
      show (Numeral.read? 1 ((padded 4 _).toList ++ '-' :: rest).length
        ((padded 4 _).toList ++ '-' :: rest)).map _ = _
      simp only [hsigned, Option.map_some, hyear]
    · have hyear : ((year.toNat : Nat) : Int) = year := by omega
      rw [if_neg hneg, String.toList_append]
      show (Numeral.read? 1 ((padded 4 _).toList ++ '-' :: rest).length
        ((padded 4 _).toList ++ '-' :: rest)).map _ = _
      simp only [hsigned, Option.map_some, hyear]

theorem date?_render {gap : List Char → List Char} (hgap : ∀ cs, gap ('-' :: cs) = '-' :: cs)
    {d : Date} (hmonth : d.month < 100) (hday : d.day < 100) (rest : List Char) :
    date? gap (d.render.toList ++ rest) = some (d, rest) := by
  have htext : "-".toList = ['-'] := rfl
  have hdash : ∀ cs, expect? '-' (gap ('-' :: cs)) = some cs := fun cs => by rw [hgap]; rfl
  unfold Date.render date?
  simp only [String.toList_append, List.append_assoc, htext, List.cons_append, List.nil_append]
  simp only [year?_renderYear, Option.bind_some, Option.bind_eq_bind, hdash, short?_padded hmonth,
    short?_padded hday]

/-- A fraction is read up to what follows it, which is no digit and no point. -/
theorem fraction?_renderFraction (t : Instant) {c : Char} (hdigit : c.isDigit = false) (hpoint : c ≠ '.')
    (rest : List Char) :
    fraction? (t.renderFraction.toList ++ c :: rest) = some (t.nano % 1000000000, c :: rest) := by
  have hread : ∀ width n, width ≤ 9 → 0 < width → n < 10 ^ width →
      fraction? (("." ++ padded width n).toList ++ c :: rest) =
        some (n * 10 ^ (9 - width), c :: rest) := by
    intro width n hwidth hpos hn
    have hlength := length_padded hpos hn
    have hdigits : ∀ c ∈ (padded width n).toList, c.isDigit = true := fun _ => isDigit_of_mem_padded
    have hsplit : splitDigits 9 ((padded width n).toList ++ c :: rest) =
        ((padded width n).toList, c :: rest) :=
      splitDigits_append hdigits (by omega) fun _ => noDigit_cons hdigit rest
    have hdrop : (c :: rest).dropWhile isDigit = c :: rest :=
      List.dropWhile_cons_of_neg (by rw [isDigit_eq, hdigit]; exact Bool.false_ne_true)
    rw [String.toList_append]
    show fraction? ('.' :: ((padded width n).toList ++ c :: rest)) = _
    unfold fraction?
    simp only [hsplit, padded_ne_nil, if_false, hlength, value_append_zeros hdigits, value_padded,
      hdrop]
  unfold Instant.renderFraction
  have hlt : t.nano % 1000000000 < 1000000000 := Nat.mod_lt _ (by decide)
  generalize t.nano % 1000000000 = nano at hlt ⊢
  simp only
  by_cases hzero : nano = 0
  · rw [if_pos hzero, hzero]
    show fraction? (c :: rest) = _
    unfold fraction?
    split
    · next heq =>
      cases heq
      exact absurd rfl hpoint
    · rfl
  rw [if_neg hzero]
  by_cases hmillis : nano % 1000000 = 0
  · rw [if_pos hmillis, hread 3 _ (by decide) (by decide) (by omega),
      show nano / 1000000 * 10 ^ (9 - 3) = nano by omega]
  rw [if_neg hmillis]
  by_cases hmicros : nano % 1000 = 0
  · rw [if_pos hmicros, hread 6 _ (by decide) (by decide) (by omega),
      show nano / 1000 * 10 ^ (9 - 6) = nano by omega]
  rw [if_neg hmicros, hread 9 _ (by decide) (by decide) (by omega),
    show nano * 10 ^ (9 - 9) = nano by omega]

end Timestamp

/-! ## Dates and clocks that are there -/

theorem Date.isValid_bounds {d : Date} (h : d.isValid) :
    1 ≤ d.month ∧ d.month ≤ 12 ∧ 1 ≤ d.day ∧ d.day ≤ 31 := by
  simp only [isValid, Bool.and_eq_true, decide_eq_true_eq] at h
  have hlength : daysInMonth d.year d.month ≤ 31 := by
    unfold daysInMonth
    split
    · split <;> omega
    · split <;> omega
  omega

namespace Instant

open Timestamp

variable (t : Instant)

theorem isValid_date : t.date.isValid := (Date.ofDays_spec _).1

theorem ofParts?_self : ofParts? t.second t.nano = some t :=
  dif_pos ⟨t.min_le, t.le_max, t.nano_lt, t.leap⟩

theorem ofDate?_self : ofDate? t.date t.secondOfDay t.nano = some t := by
  unfold ofDate?
  rw [if_pos t.isValid_date, ← t.second_eq, ofParts?_self]

/-- The fields of an instant denote it; a leap second is second 60. -/
theorem instant?_fields : TimestampFields.instant? ⟨t.date, t.secondOfDay / 3600,
    t.secondOfDay / 60 % 60, t.secondOfDay % 60 + t.nano / 1000000000, t.nano % 1000000000, 0⟩ =
    some t := by
  have hday := t.secondOfDay_lt
  obtain ⟨hle, -, hlast⟩ := t.isLeap_iff
  unfold TimestampFields.instant?
  simp only
  rw [if_neg (by omega), if_neg (by decide)]
  have hsecond : (if t.secondOfDay % 60 + t.nano / 1000000000 = 60 then 59
      else t.secondOfDay % 60 + t.nano / 1000000000) = t.secondOfDay % 60 := by
    split <;> omega
  have hnano : (if t.secondOfDay % 60 + t.nano / 1000000000 = 60 then
      t.nano % 1000000000 + 1000000000 else t.nano % 1000000000) = t.nano := by
    split <;> omega
  rw [hsecond, hnano, show t.secondOfDay / 3600 * 3600 + t.secondOfDay / 60 % 60 * 60 +
    t.secondOfDay % 60 = t.secondOfDay by omega, ofDate?_self]
  simp only [Option.bind_eq_bind, Option.bind_some, Int.sub_zero, ofParts?_self]

/-- What is written of an instant is read back, in whatever way the zone is called. -/
theorem read?_append_zone (zone : String) {c : Char} {cs : List Char} (hchars : zone.toList = c :: cs)
    (hdigit : c.isDigit = false) (hpoint : c ≠ '.') (hblank : isBlankChar c = false)
    (hzone : zone? zone.toList = some (0, [])) :
    read? (t.date.render ++ "T" ++ t.renderClock ++ t.renderFraction ++ zone) = some t := by
  obtain ⟨-, hmonth, -, hday⟩ := Date.isValid_bounds t.isValid_date
  have hsecondOfDay := t.secondOfDay_lt
  obtain ⟨hleap, -, -⟩ := t.isLeap_iff
  have htexts : "T".toList = ['T'] ∧ ":".toList = [':'] := ⟨rfl, rfl⟩
  have hcolon : ∀ cs, expect? ':' (dropBlanks (':' :: cs)) = some cs := fun _ => rfl
  have hdash : ∀ cs, dropBlanks ('-' :: cs) = '-' :: cs := fun _ => rfl
  have hgap : dropBlanks (c :: cs) = c :: cs := List.dropWhile_cons_of_neg (by simp [hblank])
  rw [hchars] at hzone
  unfold renderClock renderMinute read?
  simp only [String.toList_append, List.append_assoc, htexts, List.cons_append, List.nil_append, hchars]
  simp only [date?_render hdash (show t.date.month < 100 by omega)
      (show t.date.day < 100 by omega), Option.bind_eq_bind, Option.bind_some, divider?, hcolon,
    short?_padded (show t.secondOfDay / 3600 < 100 by omega),
    short?_padded (show t.secondOfDay / 60 % 60 < 100 by omega),
    short?_padded (show t.secondOfDay % 60 + t.nano / 1000000000 < 100 by omega),
    fraction?_renderFraction t hdigit hpoint, hgap, hzone]
  exact t.instant?_fields

/-- The form of documents is read back. -/
theorem read?_render : read? t.render = some t :=
  t.read?_append_zone "Z" rfl rfl (by decide) rfl rfl

/-- The form with a numeric offset is read back. -/
theorem read?_renderOffset : read? t.renderOffset = some t :=
  t.read?_append_zone "+00:00" rfl rfl (by decide) rfl rfl

end Instant

end FolioLedger
