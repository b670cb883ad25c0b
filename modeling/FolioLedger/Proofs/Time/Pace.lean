import FolioLedger.Proofs.Time.Instant
import Mathlib.Data.Nat.Find

/-!
# Clocks that go on

A clock that is read again and again, each time at least a millisecond and at most some seconds after
the last (`Instant.Paced`), comes to any deadline (`Instant.exists_reached`), and the milliseconds that
the store keeps of two readings lie at most a second further apart (`Instant.Paced.toMillis_le`).

Neither is plain where there are leap seconds.  The difference of two instants counts one that lies
between them only if one of the two is in it, and on the day's clock at that, so that readings which
follow each other may have the order of their seconds reversed.  `Instant.reckoning` is a count that
grows nevertheless: it gives every minute but the last of a day two seconds more than it has.
-/

namespace FolioLedger.Instant

variable {t u deadline : Instant} {seconds : Nat}

/-- The second instant is at least a millisecond and at most some seconds after the first. -/
def Paced (seconds : Nat) (t u : Instant) : Prop :=
  (1000000 : Int) ≤ u.since t ∧ u.since t ≤ seconds * 1000000000

instance (seconds : Nat) (t u : Instant) : Decidable (Paced seconds t u) :=
  inferInstanceAs (Decidable (_ ∧ _))

/-- A count of nanoseconds that leaves room for a leap second at the end of every minute within a day. -/
def reckoning (t : Instant) : Int :=
  t.second * 1000000000 + t.nano + 2000000000 * (t.second / 60 - t.second / 86400)

/-- The difference of two instants counts a leap second only if one of the two is in it. -/
theorem since_eq (t u : Instant) : ∃ counted : Int,
    (u.second - t.second + counted) * 1000000000 + (u.nano - t.nano) = u.since t ∧
      ((counted = 1 ∧ t.secondOfDay < u.secondOfDay ∧ 1000000000 ≤ t.nano) ∨
        (counted = -1 ∧ u.secondOfDay < t.secondOfDay ∧ 1000000000 ≤ u.nano) ∨
        (counted = 0 ∧ ¬ (u.secondOfDay < t.secondOfDay ∧ 1000000000 ≤ u.nano))) := by
  unfold since isLeap
  simp only [decide_eq_true_eq]
  refine ⟨_, rfl, ?_⟩
  split
  · exact .inl ⟨rfl, ‹_›⟩
  · split
    · exact .inr (.inl ⟨rfl, ‹_›⟩)
    · exact .inr (.inr ⟨rfl, ‹_›⟩)

namespace Paced

theorem toMillis_le (h : Paced seconds t u) : (u.toMillis : Int) ≤ t.toMillis + (seconds + 1) * 1000 := by
  have hle : (seconds : Int) * 1000000000 ≥ u.since t := h.2
  obtain ⟨counted, hsince, hcounted⟩ := since_eq t u
  show u.second * 1000 + (u.nano / 1000000 : Nat) ≤
    t.second * 1000 + (t.nano / 1000000 : Nat) + (seconds + 1) * 1000
  omega

theorem reckoning_le (h : Paced seconds t u) : t.reckoning + 1000000 ≤ u.reckoning := by
  have hle := h.1
  obtain ⟨counted, hsince, hcounted⟩ := since_eq t u
  have hnano := t.nano_lt
  have hnano' := u.nano_lt
  have hleap := t.leap
  have hleap' := u.leap
  unfold secondOfDay at hcounted
  unfold reckoning
  omega

end Paced

theorem reckoning_lt_of_not_le (h : ¬ deadline ≤ t) : t.reckoning <
    (deadline.second + 2) * 1000000000 +
      2000000000 * (deadline.second / 60 - deadline.second / 86400) := by
  have hle : t.second ≤ deadline.second := by
    by_contra hlater
    exact h (.inl (Int.not_le.1 hlater))
  have hnano := t.nano_lt
  unfold reckoning
  omega

/-- A clock that goes on as long as it has not come to a deadline comes to it. -/
theorem exists_reached (clock : Nat → Instant) (hpaced : ∀ n, (∀ i < n, ¬ deadline ≤ clock (i + 1)) →
    Paced seconds (clock n) (clock (n + 1))) :
    ∃ k, (∀ i < k, ¬ deadline ≤ clock (i + 1)) ∧ deadline ≤ clock (k + 1) := by
  have hreached : ∃ k, deadline ≤ clock (k + 1) := by
    by_contra hnever
    push Not at hnever
    have hgrows : ∀ n : Nat, (clock 0).reckoning + n * 1000000 ≤ (clock n).reckoning := by
      intro n
      induction n with
      | zero => omega
      | succ n ih =>
        have hstep := (hpaced n fun i _ => hnever i).reckoning_le
        omega
    obtain ⟨bound, hbound⟩ : ∃ bound, ∀ n, (clock (n + 1)).reckoning < bound :=
      ⟨_, fun n => reckoning_lt_of_not_le (hnever n)⟩
    have hlate := hgrows ((bound - (clock 0).reckoning).toNat + 1)
    have hearly := hbound (bound - (clock 0).reckoning).toNat
    omega
  exact ⟨Nat.find hreached, fun i hi => Nat.find_min hreached hi, Nat.find_spec hreached⟩

end FolioLedger.Instant
