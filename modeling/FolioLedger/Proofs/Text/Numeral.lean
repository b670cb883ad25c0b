import FolioLedger.Text.Numeral
import Mathlib.Algebra.Group.Nat.Defs
import Mathlib.Data.List.Basic

/-!
# Numerals are read back

A number is told by its digits (`Numeral.padded_inj`), and a reader that stands before them takes them
all and gives the number, as long as what follows is no digit or the digits are as many as it may take
(`Numeral.read?_padded`, `Numeral.read?_padded_of_follow`).
-/

namespace FolioLedger.Numeral

/-! ## Written digits -/

theorem toList_padded (width n : Nat) : (padded width n).toList =
    List.replicate (width - (Nat.toDigits 10 n).length) '0' ++ Nat.toDigits 10 n := by
  simp [padded]

theorem isDigit_of_mem_padded {width n : Nat} {c : Char} (h : c ∈ (padded width n).toList) :
    c.isDigit = true := by
  rw [toList_padded, List.mem_append] at h
  rcases h with hzero | hdigit
  · rw [List.eq_of_mem_replicate hzero]
    decide
  · exact Nat.isDigit_of_mem_toDigits (by decide) (by decide) hdigit

theorem notMem_padded {c : Char} (h : c.isDigit = false) (width n : Nat) :
    c ∉ (padded width n).toList := by
  intro hmem
  rw [isDigit_of_mem_padded hmem] at h
  cases h

theorem ofDigitChars_padded (width n : Nat) :
    Nat.ofDigitChars 10 (padded width n).toList 0 = n := by
  rw [toList_padded, Nat.ofDigitChars_append, Nat.ofDigitChars_replicate_zero, Nat.mul_zero,
    Nat.ofDigitChars_ten_toDigits]

theorem padded_inj {width n m : Nat} : padded width n = padded width m ↔ n = m := by
  constructor
  · intro h
    rw [← ofDigitChars_padded width n, h, ofDigitChars_padded]
  · rintro rfl
    rfl

theorem length_padded {width n : Nat} (hwidth : 0 < width) (h : n < 10 ^ width) :
    (padded width n).toList.length = width := by
  have hlength := (Nat.length_toDigits_le_iff (b := 10) (by decide) hwidth).2 h
  rw [toList_padded, List.length_append, List.length_replicate]
  omega

theorem padded_ne_nil (width n : Nat) : (padded width n).toList ≠ [] := by
  rw [toList_padded]
  exact List.append_ne_nil_of_right_ne_nil _ Nat.toDigits_ne_nil

/-! ## Digits that are read -/

theorem isDigit_eq (c : Char) : isDigit c = c.isDigit := by
  unfold isDigit digit? Char.isDigit
  have hrange : ('0' ≤ c ∧ c ≤ '9') ↔ (48 ≤ c.val ∧ c.val ≤ 57) := Iff.rfl
  by_cases h : '0' ≤ c ∧ c ≤ '9'
  · rw [if_pos h]
    simp [hrange.1 h]
  · rw [if_neg h]
    simpa [hrange] using h

theorem value_eq {digits : List Char} (h : ∀ c ∈ digits, c.isDigit = true) :
    value digits = Nat.ofDigitChars 10 digits 0 := by
  unfold value Nat.ofDigitChars
  refine List.foldl_ext _ _ 0 fun n c hc => ?_
  have hdigit := isDigit_eq c ▸ h c hc
  unfold isDigit digit? at hdigit
  unfold digit?
  split at hdigit
  · next hrange => rw [if_pos hrange, Option.getD_some]
  · cases hdigit

theorem value_padded (width n : Nat) : value (padded width n).toList = n := by
  rw [value_eq fun _ => isDigit_of_mem_padded, ofDigitChars_padded]

theorem ofDigits?_padded (width n : Nat) : ofDigits? (padded width n).toList = some n := by
  have hdigits : (padded width n).toList.all isDigit = true :=
    List.all_eq_true.2 fun c hc => isDigit_eq c ▸ isDigit_of_mem_padded hc
  unfold ofDigits?
  rw [if_pos ⟨padded_ne_nil width n, hdigits⟩, value_padded]

/-- Zeros after the digits. -/
theorem value_append_zeros {digits : List Char} (h : ∀ c ∈ digits, c.isDigit = true) (zeros : Nat) :
    value (digits ++ List.replicate zeros '0') = value digits * 10 ^ zeros := by
  have hzeros : ∀ c ∈ digits ++ List.replicate zeros '0', c.isDigit = true := by
    intro c hc
    rcases List.mem_append.1 hc with hold | hnew
    · exact h c hold
    · rw [List.eq_of_mem_replicate hnew]
      decide
  rw [value_eq hzeros, value_eq h, Nat.ofDigitChars_append, Nat.ofDigitChars_replicate_zero,
    Nat.mul_comm]

/-- What follows some digits does not start with another. -/
def NoDigit (rest : List Char) : Prop := ∀ c ∈ rest.head?, c.isDigit = false

theorem takeWhile_isDigit {digits rest : List Char} (h : ∀ c ∈ digits, c.isDigit = true)
    (hrest : NoDigit rest) : (digits ++ rest).takeWhile isDigit = digits ∧
      (digits ++ rest).dropWhile isDigit = rest := by
  have hdigits : ∀ c ∈ digits, isDigit c = true := fun c hc => isDigit_eq c ▸ h c hc
  rw [List.takeWhile_append_of_pos hdigits, List.dropWhile_append_of_pos hdigits]
  cases rest with
  | nil => simp
  | cons c rest =>
    have hc : isDigit c = false := isDigit_eq c ▸ hrest c rfl
    simp [hc]

/-- All digits are split off if no other follows among those that may be taken. -/
theorem splitDigits_append {most : Nat} {digits rest : List Char}
    (h : ∀ c ∈ digits, c.isDigit = true) (hmost : digits.length ≤ most)
    (hrest : digits.length < most → NoDigit rest) :
    splitDigits most (digits ++ rest) = (digits, rest) := by
  unfold splitDigits
  have hfollow : NoDigit (rest.take (most - digits.length)) := by
    intro c hc
    by_cases hlt : digits.length < most
    · refine hrest hlt c ?_
      rwa [List.head?_take, if_neg (by omega)] at hc
    · rw [show most - digits.length = 0 by omega] at hc
      cases hc
  rw [List.take_append, List.take_of_length_le hmost, (takeWhile_isDigit h hfollow).1]
  simp

theorem read?_append {least most : Nat} {digits rest : List Char}
    (h : ∀ c ∈ digits, c.isDigit = true) (hleast : least ≤ digits.length)
    (hmost : digits.length ≤ most) (hrest : digits.length < most → NoDigit rest) :
    read? least most (digits ++ rest) = some (value digits, rest) := by
  unfold read?
  rw [splitDigits_append h hmost hrest]
  exact if_neg (by omega)

/-- A number of as many digits as may be taken. -/
theorem read?_padded {least width n : Nat} (hleast : least ≤ width) (hwidth : 0 < width)
    (h : n < 10 ^ width) (rest : List Char) :
    read? least width ((padded width n).toList ++ rest) = some (n, rest) := by
  have hlength := length_padded hwidth h
  rw [read?_append (fun _ => isDigit_of_mem_padded) (by omega) (by omega) (by omega), value_padded]

/-- A number of any length. -/
theorem read?_padded_of_follow {most width n : Nat} {rest : List Char}
    (hmost : (padded width n).toList.length ≤ most) (hrest : NoDigit rest) :
    read? 1 most ((padded width n).toList ++ rest) = some (n, rest) := by
  have hpos := List.length_pos_of_ne_nil (padded_ne_nil width n)
  rw [read?_append (fun _ => isDigit_of_mem_padded) (by omega) hmost fun _ => hrest, value_padded]

end FolioLedger.Numeral
