import FolioLedger.Text.Base64
import Mathlib.Data.Nat.Init

/-!
# Base64 is read back

Each character of the alphabet stands for its six bits and none of them is the padding, so the bytes
of a spelling come back group by group (`Base64.decodeChars?_encodeBytes`).
-/

namespace FolioLedger.Base64

theorem sextet?_sextetChar : ∀ n < 64, sextet? (sextetChar n) = some n ∧ sextetChar n ≠ '=' := by
  decide

theorem decodeChars?_cons {w x y z : Char} (hz : z ≠ '=') (rest : List Char) :
    decodeChars? (w :: x :: y :: z :: rest) = (do
      let n := (((← sextet? w) * 64 + (← sextet? x)) * 64 + (← sextet? y)) * 64 + (← sextet? z)
      let bytes ← decodeChars? rest
      some (UInt8.ofNat (n / 65536) :: UInt8.ofNat (n / 256 % 256) :: UInt8.ofNat (n % 256) ::
        bytes)) := by
  rw [decodeChars?]
  · rintro - hpad
    exact absurd hpad hz
  · intro hpad
    exact absurd hpad hz

theorem ofNat_eq {n : Nat} {b : UInt8} (h : n = b.toNat) : UInt8.ofNat n = b := by
  rw [h, UInt8.ofNat_toNat]

/-- What is spelt out is read back. -/
theorem decodeChars?_encodeBytes (bytes : List UInt8) :
    decodeChars? (encodeBytes bytes) = some bytes := by
  have hread : ∀ n < 64, sextet? (sextetChar n) = some n := fun n hn => (sextet?_sextetChar n hn).1
  induction bytes using encodeBytes.induct with
  | case1 => rfl
  | case2 a =>
    have ha := a.toNat_lt
    have hn : a.toNat * 16 / 64 * 64 + a.toNat * 16 % 64 = a.toNat * 16 := by omega
    simp only [encodeBytes, decodeChars?, hread _ (show a.toNat * 16 / 64 < 64 by omega),
      hread _ (show a.toNat * 16 % 64 < 64 by omega), Option.bind_eq_bind, Option.bind_some, hn]
    have ha' : UInt8.ofNat (a.toNat * 16 / 16) = a := ofNat_eq (by omega)
    rw [if_pos (by omega), ha']
  | case3 a b =>
    have ha := a.toNat_lt
    have hb := b.toNat_lt
    obtain ⟨n, hn⟩ : ∃ n, n = (a.toNat * 256 + b.toNat) * 4 := ⟨_, rfl⟩
    have hsum : (n / 4096 * 64 + n / 64 % 64) * 64 + n % 64 = n := by omega
    have hpad := (sextet?_sextetChar (n % 64) (by omega)).2
    simp only [encodeBytes, ← hn]
    rw [decodeChars?]
    · simp only [hread _ (show n / 4096 < 64 by omega), hread _ (show n / 64 % 64 < 64 by omega),
        hread _ (show n % 64 < 64 by omega), Option.bind_eq_bind, Option.bind_some, hsum]
      have ha' : UInt8.ofNat (n / 1024) = a := ofNat_eq (by omega)
      have hb' : UInt8.ofNat (n / 4 % 256) = b := ofNat_eq (by omega)
      rw [if_pos (by omega), ha', hb']
    · exact hpad
  | case4 a b c rest ih =>
    have ha := a.toNat_lt
    have hb := b.toNat_lt
    have hc := c.toNat_lt
    obtain ⟨n, hn⟩ : ∃ n, n = (a.toNat * 256 + b.toNat) * 256 + c.toNat := ⟨_, rfl⟩
    have hsum : ((n / 262144 * 64 + n / 4096 % 64) * 64 + n / 64 % 64) * 64 + n % 64 = n := by omega
    simp only [encodeBytes, ← hn]
    rw [decodeChars?_cons (sextet?_sextetChar _ (by omega)).2, ih]
    simp only [hread _ (show n / 262144 < 64 by omega), hread _ (show n / 4096 % 64 < 64 by omega),
      hread _ (show n / 64 % 64 < 64 by omega), hread _ (show n % 64 < 64 by omega),
      Option.bind_eq_bind, Option.bind_some, hsum]
    have ha' : UInt8.ofNat (n / 65536) = a := ofNat_eq (by omega)
    have hb' : UInt8.ofNat (n / 256 % 256) = b := ofNat_eq (by omega)
    have hc' : UInt8.ofNat (n % 256) = c := ofNat_eq (by omega)
    rw [ha', hb', hc']

end FolioLedger.Base64
