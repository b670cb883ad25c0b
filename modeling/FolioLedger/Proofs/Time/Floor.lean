import FolioLedger.Proofs.Time.Instant
import Mathlib.Order.Bounds.Defs

/-!
# Instants in whole milliseconds

The store keeps whole milliseconds.  What it gives back of an instant is the last whole millisecond that is
not after it (`Instant.floor`, `Instant.floor_isGreatest`), before 1970 as after it, exactly if the instant
does not lie in a leap second (`Instant.ofMillis_toMillis_iff`): a leap second is taken for the second after
it.  An instant that was kept is compared by milliseconds as it is in full (`Instant.OnScale.le_iff`).
-/

namespace FolioLedger.Instant

variable {t u : Instant}

/-- The last whole millisecond that is not after the instant. -/
def floor (t : Instant) : Instant where
  second := t.second
  nano := t.nano / 1000000 * 1000000
  min_le := t.min_le
  le_max := t.le_max
  nano_lt := by
    have := t.nano_lt
    omega
  leap h := t.leap (by omega)

/-- The instant is a whole millisecond, maybe of a leap second. -/
def WholeMillis (t : Instant) : Prop := t.nano % 1000000 = 0

theorem floor_isGreatest (t : Instant) : IsGreatest {v : Instant | v.WholeMillis ∧ v ≤ t} t.floor := by
  refine ⟨⟨Nat.mul_mod_left _ _, .inr ⟨rfl, Nat.div_mul_le_self _ _⟩⟩, ?_⟩
  rintro v ⟨hwhole, hlt | ⟨hsecond, hnano⟩⟩
  · exact .inl hlt
  · refine .inr ⟨hsecond, ?_⟩
    show v.nano ≤ t.nano / 1000000 * 1000000
    unfold WholeMillis at hwhole
    omega

theorem isLeap_eq_false_iff : t.isLeap = false ↔ t.nano < 1000000000 := by
  simp [isLeap]

theorem readable_of_not_leap (h : t.isLeap = false) : t.Readable := by
  rw [readable_iff, h]
  simp

theorem ext_parts (hsecond : t.second = u.second) (hnano : t.nano = u.nano) : t = u := by
  cases t
  cases u
  simp_all

/-- What is given back of an instant is its whole milliseconds exactly if it is outside of leap seconds. -/
theorem ofMillis_toMillis_iff : ofMillis t.toMillis = .ok t.floor ↔ t.isLeap = false := by
  rw [isLeap_eq_false_iff]
  obtain ⟨ms, hms⟩ : ∃ ms : Int, ms = t.second * 1000 + (t.nano / 1000000 : Nat) := ⟨_, rfl⟩
  have hmillis : t.toMillis = ms := hms.symm
  rw [hmillis]
  constructor
  · intro h
    have hsecond : t.second = ms / 1000 := (ofMillis_eq_ok h).1
    omega
  · intro hnano
    obtain ⟨u, hu⟩ := readable_of_not_leap (isLeap_eq_false_iff.2 hnano)
    rw [hmillis] at hu
    obtain ⟨hsecond, hrest⟩ := ofMillis_eq_ok hu
    have hstays : u.second = t.second := by omega
    have hrem : (ms % 1000).toNat = t.nano / 1000000 := by omega
    have hfloor : u.nano = t.nano / 1000000 * 1000000 := by rw [hrest, hrem]
    rw [hu, ext_parts (u := t.floor) hstays hfloor]

/-- What was kept lies on the scale. -/
theorem onScale_of_ofMillis {ms : Millis} (h : ofMillis ms = .ok t) : t.OnScale := by
  obtain ⟨-, hnano⟩ := ofMillis_eq_ok h
  obtain ⟨n, hn⟩ : ∃ n : Nat, n = (ms % 1000).toNat := ⟨_, rfl⟩
  rw [← hn] at hnano
  refine ⟨by omega, isLeap_eq_false_iff.2 ?_⟩
  omega

/-- An instant on the scale is not after another, outside of leap seconds, exactly if its milliseconds are
not. -/
theorem OnScale.le_iff (h : t.OnScale) (hu : u.isLeap = false) : t ≤ u ↔ t.toMillis ≤ u.toMillis := by
  have hplain := h.nano_lt
  have hplain' := isLeap_eq_false_iff.1 hu
  have hround := h.1
  show t.second < u.second ∨ (t.second = u.second ∧ t.nano ≤ u.nano) ↔
    t.second * 1000 + (t.nano / 1000000 : Nat) ≤ u.second * 1000 + (u.nano / 1000000 : Nat)
  omega

end FolioLedger.Instant
