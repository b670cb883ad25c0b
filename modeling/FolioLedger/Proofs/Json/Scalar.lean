import FolioLedger.Json.Printer
import FolioLedger.Json.Reader
import FolioLedger.Proofs.Text.Numeral
import Mathlib.Data.Nat.Init

/-!
# Strings and numbers of JSON are read back

A character of a string is spelt in one element, as it stands, by a short escape or by its number, and
the reader takes the element for that character (`Json.readElements?_escapeChar`), so it gives back the
whole text (`Json.readText?_quoteText`).  A number that fits a word of 64 bits is read back as long as
what follows does not go on with it (`Json.readNumber?_signed`).
-/

namespace FolioLedger.Json

open Numeral

/-! ## Strings -/

/-- An element that denotes one character by itself. -/
def Denotes (e : Element) (c : Char) : Prop := ∀ es, textOf? (e :: es) = (textOf? es).map (c :: ·)

theorem denotes_char (c : Char) : Denotes (.char c) c := fun _ => rfl

/-- Below the surrogates a unit denotes the character of its number. -/
theorem denotes_unit {c : Char} (h : c.toNat < 32) : Denotes (.unit c.toNat) c := by
  intro es
  have hc : Char.ofNat c.toNat = c := Char.ofNat_toNat c
  rw [textOf?.eq_def]
  simp only
  rw [if_neg (by omega), if_neg (by omega), hc]

theorem readUnit?_digitChar {n : Nat} (h : n < 32) (rest : List Char) :
    readUnit? ('0' :: '0' :: Nat.digitChar (n / 16) :: Nat.digitChar (n % 16) :: rest) =
      some (n, rest) := by
  have hdigit : ∀ d < 16, Hex.digit? (Nat.digitChar d) = some d := by decide
  have hzero : Hex.digit? '0' = some 0 := rfl
  unfold readUnit?
  simp only [hzero, hdigit _ (show n / 16 < 16 by omega), hdigit _ (show n % 16 < 16 by omega),
    Option.bind_eq_bind, Option.bind_some]
  rw [show ((0 * 16 + 0) * 16 + n / 16) * 16 + n % 16 = n by omega]

theorem readElements?_cons {c : Char} (hquote : c ≠ '"') (hbackslash : c ≠ '\\')
    (hcontrol : ¬ c.toNat < 32) (fuel : Nat) (rest : List Char) :
    readElements? (fuel + 1) (c :: rest) =
      (readElements? fuel rest).map fun r => (.char c :: r.1, r.2) := by
  rw [readElements?, if_neg hquote, if_neg hbackslash, if_neg hcontrol]
  cases readElements? fuel rest <;> rfl

theorem readElements?_escape {cs rest : List Char} {e : Element}
    (h : readEscape? (cs ++ rest) = some (e, rest)) (fuel : Nat) :
    readElements? (fuel + 1) ('\\' :: cs ++ rest) =
      (readElements? fuel rest).map fun r => (e :: r.1, r.2) := by
  rw [List.cons_append, readElements?, if_neg (by decide), if_pos rfl, h]
  simp only [Option.bind_eq_bind, Option.bind_some]
  cases readElements? fuel rest <;> rfl

/-- The spelling of a character is read as one element that denotes it. -/
theorem readElements?_escapeChar (c : Char) (fuel : Nat) (rest : List Char) :
    ∃ e, Denotes e c ∧ readElements? (fuel + 1) (escapeChar c ++ rest) =
      (readElements? fuel rest).map fun r => (e :: r.1, r.2) := by
  have hnamed : ∀ n, n.isValidChar → c.toNat = n → c = Char.ofNat n := fun n _ h => by
    rw [← h, Char.ofNat_toNat]
  unfold escapeChar
  split
  · next h => exact ⟨_, h ▸ denotes_char c, readElements?_escape rfl fuel⟩
  split
  · next h => exact ⟨_, h ▸ denotes_char c, readElements?_escape rfl fuel⟩
  split
  · next h => exact ⟨_, h ▸ denotes_char c, readElements?_escape rfl fuel⟩
  split
  · next h => exact ⟨_, h ▸ denotes_char c, readElements?_escape rfl fuel⟩
  split
  · next h => exact ⟨_, h ▸ denotes_char c, readElements?_escape rfl fuel⟩
  split
  · next h => exact ⟨_, hnamed 8 (by decide) h ▸ denotes_char c, readElements?_escape rfl fuel⟩
  split
  · next h => exact ⟨_, hnamed 12 (by decide) h ▸ denotes_char c, readElements?_escape rfl fuel⟩
  split
  · next h =>
    refine ⟨.unit c.toNat, denotes_unit h, readElements?_escape ?_ fuel⟩
    show (readUnit? ('0' :: '0' :: _ :: _ :: rest)).map _ = _
    rw [readUnit?_digitChar h]
    rfl
  · next hquote hbackslash _ _ _ _ _ hcontrol =>
    exact ⟨.char c, denotes_char c, readElements?_cons hquote hbackslash hcontrol fuel rest⟩

theorem readElements?_quote (cs : List Char) {fuel : Nat} (hfuel : cs.length < fuel)
    (rest : List Char) : ∃ es, textOf? es = some cs ∧
      readElements? fuel (cs.flatMap escapeChar ++ '"' :: rest) = some (es, rest) := by
  induction cs generalizing fuel with
  | nil =>
    obtain ⟨fuel, rfl⟩ := Nat.exists_eq_add_one_of_ne_zero (Nat.ne_zero_of_lt hfuel)
    exact ⟨[], rfl, rfl⟩
  | cons c cs ih =>
    obtain ⟨fuel, rfl⟩ := Nat.exists_eq_add_one_of_ne_zero (Nat.ne_zero_of_lt hfuel)
    obtain ⟨es, htext, hread⟩ := ih (Nat.lt_of_succ_lt_succ hfuel)
    obtain ⟨e, hdenotes, hstep⟩ :=
      readElements?_escapeChar c fuel (cs.flatMap escapeChar ++ '"' :: rest)
    refine ⟨e :: es, ?_, ?_⟩
    · rw [hdenotes, htext, Option.map_some]
    · rw [List.flatMap_cons, List.append_assoc, hstep, hread, Option.map_some]

theorem length_le_flatMap_escapeChar (cs : List Char) :
    cs.length ≤ (cs.flatMap escapeChar).length := by
  have hpos : ∀ c, 1 ≤ (escapeChar c).length := by
    intro c
    unfold escapeChar
    repeat' split
    all_goals exact Nat.le_add_left 1 _
  induction cs with
  | nil => exact Nat.le_refl 0
  | cons c cs ih =>
    have hc := hpos c
    rw [List.flatMap_cons, List.length_append, List.length_cons]
    omega

/-- The spelling of a string after its opening quote is read back. -/
theorem readText?_quoteText (t : Option String) (rest : List Char) :
    ∃ cs, (quoteText t).toList = '"' :: cs ∧ readText? (cs ++ rest) = some (t, rest) := by
  cases t with
  | none =>
    refine ⟨['\\', 'u', 'd', 'c', '0', '0', '"'], rfl, ?_⟩
    have hread : readElements? (rest.length + 8) (['\\', 'u', 'd', 'c', '0', '0', '"'] ++ rest) =
        some ([.unit 0xDC00], rest) :=
      readElements?_escape (show readEscape? (['u', 'd', 'c', '0', '0'] ++ '"' :: rest) = _ from rfl)
        (rest.length + 7)
    unfold readText?
    rw [show (['\\', 'u', 'd', 'c', '0', '0', '"'] ++ rest).length + 1 = rest.length + 8 by simp, hread]
    rfl
  | some s =>
    refine ⟨s.toList.flatMap escapeChar ++ ['"'], by simp [quoteText, quote], ?_⟩
    have hlength := length_le_flatMap_escapeChar s.toList
    rw [List.append_assoc, List.singleton_append]
    unfold readText?
    obtain ⟨es, htext, hread⟩ := readElements?_quote s.toList
      (show s.toList.length < (s.toList.flatMap escapeChar ++ '"' :: rest).length + 1 by
        rw [List.length_append]
        omega) rest
    simp only [hread, Option.map_some, htext, String.ofList_toList]

/-! ## Numbers -/

/-- What follows a number does not go on with it. -/
def Ends (rest : List Char) : Prop :=
  ∀ c ∈ rest.head?, c.isDigit = false ∧ c ≠ '.' ∧ c ≠ 'e' ∧ c ≠ 'E'

theorem Ends.noDigit {rest : List Char} (h : Ends rest) : NoDigit rest := fun c hc => (h c hc).1

theorem readFraction?_of_ends {rest : List Char} (h : Ends rest) :
    readFraction? rest = some (none, rest) := by
  unfold readFraction?
  split
  · exact absurd rfl (h '.' rfl).2.1
  · rfl

theorem readExponent?_of_ends {rest : List Char} (h : Ends rest) :
    readExponent? rest = some (none, rest) := by
  cases rest with
  | nil => rfl
  | cons c rest =>
    obtain ⟨-, -, hlower, hupper⟩ := h c rfl
    exact if_neg (not_or.2 ⟨hlower, hupper⟩)

/-- Only the number zero is written with a zero in front. -/
theorem eq_nil_of_toDigits {n : Nat} {digits : List Char} (h : Nat.toDigits 10 n = '0' :: digits) :
    digits = [] := by
  induction n using Nat.strong_induction_on generalizing digits with
  | _ n ih =>
    by_cases hsmall : n < 10
    · rw [Nat.toDigits_of_lt_base hsmall] at h
      exact (List.cons.inj h).2.symm
    · rw [Nat.toDigits_of_base_le (by decide) (Nat.not_lt.1 hsmall)] at h
      obtain ⟨c, front, hfront⟩ :=
        List.exists_cons_of_ne_nil (Nat.toDigits_ne_nil (b := 10) (n := n / 10))
      rw [hfront, List.cons_append] at h
      obtain ⟨rfl, -⟩ := List.cons.inj h
      obtain rfl := ih (n / 10) (by omega) hfront
      have hvalue : n / 10 = Nat.ofDigitChars 10 ['0'] 0 := by
        rw [← hfront, Nat.ofDigitChars_ten_toDigits]
      have hzero : Nat.ofDigitChars 10 ['0'] 0 = 0 := rfl
      omega

theorem readWhole?_toDigits (n : Nat) {rest : List Char} (h : Ends rest) :
    readWhole? (Nat.toDigits 10 n ++ rest) = some (Nat.toDigits 10 n, rest) := by
  have hdigits : ∀ c ∈ Nat.toDigits 10 n, c.isDigit = true := fun c hc =>
    Nat.isDigit_of_mem_toDigits (by decide) (by decide) hc
  obtain ⟨htake, hdrop⟩ := takeWhile_isDigit hdigits h.noDigit
  obtain ⟨c, digits, hcons⟩ := List.exists_cons_of_ne_nil (Nat.toDigits_ne_nil (b := 10) (n := n))
  by_cases hzero : c = '0'
  · subst hzero
    obtain rfl := eq_nil_of_toDigits hcons
    rw [hcons, List.singleton_append]
    cases rest with
    | nil => rfl
    | cons d rest =>
      have hd : isDigit d = false := isDigit_eq d ▸ h.noDigit d rfl
      simp [readWhole?, hd]
  · have hread : readDigits? (Nat.toDigits 10 n ++ rest) = some (Nat.toDigits 10 n, rest) := by
      unfold readDigits?
      simp only [htake, hdrop, Nat.toDigits_ne_nil, if_false]
    rw [hcons, List.cons_append] at hread ⊢
    rw [readWhole?, hread]
    simpa using hzero

/-- A number that fits a word of 64 bits, signed or not. -/
def FitsWord (n : Int) : Prop := -9223372036854775808 ≤ n ∧ n < 18446744073709551616

theorem toList_padded_one (n : Nat) : (padded 1 n).toList = Nat.toDigits 10 n := by
  have hpos := Nat.length_toDigits_pos (b := 10) (n := n)
  rw [toList_padded, show 1 - (Nat.toDigits 10 n).length = 0 by omega, List.replicate_zero,
    List.nil_append]

theorem value_toDigits (n : Nat) : value (Nat.toDigits 10 n) = n := by
  rw [← toList_padded_one, value_padded]

theorem ofNumber_whole {negative : Bool} {digits : List Char} {n : Int}
    (hvalue : (if negative then -(value digits : Int) else value digits) = n) (hn : FitsWord n)
    (hzero : ¬ (negative = true ∧ n = 0)) : ofNumber negative digits none none = .int n := by
  unfold ofNumber
  simp only [hvalue]
  exact if_pos ⟨trivial, trivial, hn.1, hn.2, hzero⟩

theorem readNumber?_signed {n : Int} (hn : FitsWord n) {rest : List Char} (h : Ends rest) :
    readNumber? ((Numeral.signed n).toList ++ rest) = some (.int n, rest) := by
  have hwhole := fun k => readWhole?_toDigits k h
  cases n with
  | ofNat k =>
    have hnumber : ofNumber false (Nat.toDigits 10 k) none none = .int k :=
      ofNumber_whole (by rw [value_toDigits]; rfl) hn (by simp)
    show readNumber? ((padded 1 k).toList ++ rest) = _
    rw [toList_padded_one]
    -- No number starts with a minus sign.
    obtain ⟨c, digits, hcons⟩ := List.exists_cons_of_ne_nil (Nat.toDigits_ne_nil (b := 10) (n := k))
    have hc : c ≠ '-' := by
      rintro rfl
      have hdigit : '-'.isDigit = true :=
        Nat.isDigit_of_mem_toDigits (by decide) (by decide) (hcons ▸ List.mem_cons_self)
      cases hdigit
    have hwhole := hwhole k
    rw [hcons, List.cons_append] at hwhole ⊢
    rw [hcons] at hnumber
    simp [readNumber?, hc, hwhole, readFraction?_of_ends h, readExponent?_of_ends h, hnumber]
  | negSucc k =>
    have hnumber : ofNumber true (Nat.toDigits 10 (k + 1)) none none = .int (.negSucc k) :=
      ofNumber_whole (by rw [value_toDigits]; rfl) hn (by simp)
    show readNumber? (("-" ++ padded 1 (k + 1)).toList ++ rest) = _
    rw [String.toList_append, toList_padded_one]
    show readNumber? ('-' :: (Nat.toDigits 10 (k + 1) ++ rest)) = _
    unfold readNumber?
    simp only [hwhole, readFraction?_of_ends h, readExponent?_of_ends h, Option.bind_eq_bind,
      Option.bind_some, hnumber]

end FolioLedger.Json
