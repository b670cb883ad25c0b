import FolioLedger.Proofs.Replenish.Held
import Mathlib.Data.List.Nodup

/-!
# Rows of locks

What each operation on locks does to the row of a lock, read through `Store.lock?`: `acquire` puts a
new row in its place or finds the lock busy, `renew` and `release` change the deadline of the holder's
row and of no other.  The look-up sees the whole table as long as its keys are apart
(`Store.LocksApart`), which every operation keeps.  A lock is free of a token (`Store.FreeOf`) when the
token is not its holder's, or has given it back; that stays so for as long as the token is not drawn
again.  A lock that is taken is held under the lease that is given back (`Store.Held`), for as long as
its deadline has not passed.
-/

namespace FolioLedger

open Relation

namespace Store

variable {s t : Store} {now : Instant} {ttl : Nat} {key token : String} {lease : Lease}

/-! ## One row for a key -/

/-- No two rows are for one lock. -/
def LocksApart (s : Store) : Prop := (s.locks.map (·.key)).Nodup

theorem LocksApart.empty : LocksApart Store.empty := List.nodup_nil

theorem LocksApart.map_rows (h : s.LocksApart) {f : LockRow → LockRow} (hf : ∀ r, (f r).key = r.key) :
    LocksApart { s with locks := s.locks.map f } := by
  unfold LocksApart at h ⊢
  rw [List.map_map]
  have hsame : (LockRow.key ∘ f) = LockRow.key := funext hf
  rw [hsame]
  exact h

theorem LocksApart.putLock (h : s.LocksApart) (row : LockRow) : (s.putLock row).LocksApart := by
  unfold Store.putLock
  by_cases hold : s.locks.any (·.key = row.key)
  · simp only [hold, if_true]
    apply h.map_rows
    intro r
    by_cases hkey : r.key = row.key
    · rw [if_pos hkey, hkey]
    · rw [if_neg hkey]
  · simp only [hold]
    unfold LocksApart at h ⊢
    simp only [Bool.false_eq_true, if_false, List.map_append, List.map_cons, List.map_nil]
    rw [List.nodup_append]
    refine ⟨h, by simp, ?_⟩
    intro a ha b hb heq
    obtain ⟨r, hr, rfl⟩ := List.mem_map.1 ha
    obtain rfl := List.mem_singleton.1 hb
    exact hold (List.any_eq_true.2 ⟨r, hr, by simpa using heq⟩)

theorem lock?_of_mem (h : s.LocksApart) {row : LockRow} (hrow : row ∈ s.locks) :
    s.lock? row.key = some row := by
  unfold lock?
  cases hfind : s.locks.find? (·.key = row.key) with
  | none =>
    rw [List.find?_eq_none] at hfind
    have hne := hfind row hrow
    simp at hne
  | some r =>
    have hkey : r.key = row.key := by simpa using List.find?_some hfind
    have hmem : r ∈ s.locks := List.mem_of_find?_eq_some hfind
    rw [List.inj_on_of_nodup_map h hmem hrow hkey]

theorem lock?_eq_some {row : LockRow} (h : s.lock? key = some row) :
    row ∈ s.locks ∧ row.key = key := by
  unfold lock? at h
  exact ⟨List.mem_of_find?_eq_some h, by simpa using List.find?_some h⟩

/-! ## What the operations do -/

theorem release_apart (h : s.LocksApart) (lease : Lease) : (s.release lease).LocksApart := by
  apply h.map_rows
  intro r
  split <;> rfl

/-- The lease is of the row: its holder's, and not past its deadline. -/
def Renewable (s : Store) (now : Instant) (lease : Lease) : Prop :=
  ∃ row, s.lock? lease.key = some row ∧ row.token = lease.token ∧ now.toMillis ≤ row.deadline

theorem any_held_iff (h : s.LocksApart) (now : Instant) (lease : Lease) :
    (s.locks.any fun r => r.key = lease.key ∧ r.token = lease.token ∧ now.toMillis ≤ r.deadline) =
      true ↔ s.Renewable now lease := by
  rw [List.any_eq_true]
  constructor
  · rintro ⟨row, hrow, hheld⟩
    obtain ⟨hkey, htoken, hle⟩ : row.key = lease.key ∧ row.token = lease.token ∧
      now.toMillis ≤ row.deadline := by simpa using hheld
    exact ⟨row, hkey ▸ lock?_of_mem h hrow, htoken, hle⟩
  · rintro ⟨row, hrow, htoken, hle⟩
    obtain ⟨hmem, hkey⟩ := lock?_eq_some hrow
    exact ⟨row, hmem, by simpa using ⟨hkey, htoken, hle⟩⟩

/-- A lease is renewed, or it was lost and nothing happens. -/
theorem renew_cases (h : s.LocksApart) (now : Instant) (ttl : Nat) (lease : Lease) :
    (s.Renewable now lease ∧
      (s.renew now ttl lease).1 = (Instant.ofMillis (Lock.deadline now.toMillis ttl)).map
        (fun t => { lease with deadline := t }) ∧
      ∀ key, (s.renew now ttl lease).2.lock? key = (s.lock? key).map fun r =>
        if r.key = lease.key then { r with deadline := Lock.deadline now.toMillis ttl } else r) ∨
    (¬ s.Renewable now lease ∧ s.renew now ttl lease = (.error (.lockLost lease.key), s)) := by
  have hany := any_held_iff h now lease
  by_cases hheld : s.Renewable now lease
  · refine .inl ⟨hheld, ?_, fun key => ?_⟩
    · simp only [renew]
      rw [if_pos (by simpa using hany.2 hheld)]
    · obtain ⟨row, hrow, htoken, hle⟩ := hheld
      rw [lock?_renew]
      apply Option.map_congr
      intro r hr
      by_cases hkey : r.key = lease.key
      · -- The row that is found is the holder's.
        obtain ⟨-, hrkey⟩ := lock?_eq_some hr
        rw [← hrkey, hkey, hrow] at hr
        obtain rfl := Option.some.inj hr
        rw [if_pos ⟨hkey, htoken, hle⟩, if_pos hkey]
      · rw [if_neg fun hc => hkey hc.1, if_neg hkey]
  · refine .inr ⟨hheld, ?_⟩
    simp only [renew]
    rw [if_neg (by simpa using mt hany.1 hheld)]

theorem renew_apart (h : s.LocksApart) (now : Instant) (ttl : Nat) (lease : Lease) :
    (s.renew now ttl lease).2.LocksApart := by
  simp only [renew]
  split
  · apply h.map_rows
    intro r
    split <;> rfl
  · exact h

/-- Somebody holds a lock. -/
def Busy (s : Store) (now : Instant) (key : String) : Prop :=
  ∃ row, s.lock? key = some row ∧ Lock.isExpired row.deadline now.toMillis = false

theorem acquire_of_busy (h : s.Busy now key) (ttl : Nat) (token : String) :
    s.acquire now ttl token key = (.error (.lockBusy key), s) := by
  obtain ⟨row, hrow, hlive⟩ := h
  unfold acquire
  simp only [hrow, hlive, Bool.false_eq_true, if_false]

/-- A lock that is free is taken, whether or not its deadline can be named. -/
theorem acquire_of_free (h : ¬ s.Busy now key) (ttl : Nat) (token : String) :
    ∃ fencing, (∀ row, s.lock? key = some row → row.fencing < fencing) ∧
      s.acquire now ttl token key =
        ((Instant.ofMillis (Lock.deadline now.toMillis ttl)).map fun t =>
            (⟨key, token, fencing, t⟩ : Lease),
          s.putLock ⟨key, token, fencing, Lock.deadline now.toMillis ttl⟩) := by
  rcases s.acquire_cases now ttl token key with ⟨fencing, hfree, hres⟩ | ⟨hbusy, -⟩
  · refine ⟨fencing, fun row hrow => ?_, hres⟩
    rcases hfree with ⟨hnone, -⟩ | ⟨row', hrow', -, rfl⟩
    · rw [hnone] at hrow
      cases hrow
    · obtain rfl := Option.some.inj (hrow'.symm.trans hrow)
      exact Nat.lt_succ_self _
  · exact absurd hbusy h

/-! ## Whoever has no token touches no lock -/

theorem Turn.locks_eq_of_nil {entered : List Series} (h : Turn now [] entered s t) :
    t.locks = s.locks := by
  cases h with
  | aside _ hlocks => exact hlocks
  | record => rfl
  | resolve => rfl
  | acquire ttl key mine => cases mine
  | renew ttl mine => cases mine
  | release mine => cases mine

theorem resolve_locks {trackingId : String} {state : RequestState}
    (h : s.resolve trackingId state = .ok t) : t.locks = s.locks := by
  unfold resolve at h
  split at h
  · cases h
    rfl
  · split at h <;> cases h

theorem locks_after_of_nil (s : Store) {e : Event} (h : e.call.tokens = []) :
    (s.after e).locks = s.locks := by
  have hturns := e.turns s
  rw [h] at hturns
  generalize s.after e = t at hturns ⊢
  induction hturns with
  | refl => rfl
  | tail _ hturn ih => exact hturn.locks_eq_of_nil.trans ih

/-! ## Locks that are held under a lease -/

/-- The lock is reported under a lease, up to its deadline. -/
def Held (s : Store) (lease : Lease) : Prop :=
  ∀ now, now.toMillis ≤ lease.deadline.toMillis → s.holder now lease.key = .ok (some lease)

/-- The row of a lock is that of a lease, and its deadline can be given back. -/
structure Lends (s : Store) (lease : Lease) : Prop where
  row : s.lock? lease.key =
    some ⟨lease.key, lease.token, lease.fencing, lease.deadline.toMillis⟩
  late : 0 < lease.deadline.toMillis
  readable : Instant.ofMillis lease.deadline.toMillis = .ok lease.deadline

theorem Lends.held (h : s.Lends lease) : s.Held lease := by
  intro now hle
  have hlive := Lock.isExpired_eq_false h.late hle
  unfold holder
  rw [h.row]
  simp only [hlive, Bool.false_eq_true, if_false, h.readable]
  rfl

theorem Lends.of_locks (h : s.Lends lease) (hlocks : t.locks = s.locks) : t.Lends lease := by
  refine ⟨?_, h.late, h.readable⟩
  have hrow := h.row
  unfold lock? at hrow ⊢
  rw [hlocks, hrow]

/-- A lease is kept while others act, unless its deadline passes on a clock of theirs. -/
theorem Lends.run (h : s.Lends lease) {es : List Event}
    (hothers : ∀ e ∈ es, lease.token ∉ e.call.tokens)
    (hlast : ∀ e ∈ es, e.clock.toMillis ≤ lease.deadline.toMillis) : (s.run es).Lends lease := by
  induction es generalizing s with
  | nil => exact h
  | cons e es ih =>
    rw [List.forall_mem_cons] at hothers hlast
    have hlive := Lock.isExpired_eq_false h.late hlast.1
    have hrow := Turns.lock?_of_held (e.turns s) h.row hothers.1 hlive
    exact ih ⟨hrow, h.late, h.readable⟩ hothers.2 hlast.2

theorem acquire_lends (hnow : 0 < now.toMillis)
    (h : s.acquire now ttl token key = (.ok lease, t)) :
    lease.key = key ∧ lease.token = token ∧ t.Lends lease := by
  obtain ⟨-, fencing, d, hdeadline, rfl, rfl⟩ := acquire_eq_ok h
  have htime := Instant.toMillis_of_ofMillis hdeadline
  refine ⟨rfl, rfl, ?_, ?_, ?_⟩
  · simp only [lock?_putLock, htime, if_true]
  · simp only [htime]
    exact Lock.deadline_pos hnow ttl
  · simp only [htime, hdeadline]

/-- With a deadline that can be given back a lock is taken, or it is busy. -/
theorem acquire_timely (h : ∃ d, Instant.ofMillis (Lock.deadline now.toMillis ttl) = .ok d)
    (token key : String) : s.acquire now ttl token key = (.error (.lockBusy key), s) ∨
      ∃ lease t, s.acquire now ttl token key = (.ok lease, t) := by
  obtain ⟨d, hd⟩ := h
  rcases s.acquire_cases now ttl token key with ⟨fencing, -, hres⟩ | ⟨-, hres⟩
  · rw [hd] at hres
    exact .inr ⟨⟨key, token, fencing, d⟩, _, hres⟩
  · exact .inl hres

theorem holder_of_expired {row : LockRow} (hrow : s.lock? key = some row)
    (hexpired : Lock.isExpired row.deadline now.toMillis = true) :
    s.holder now key = .ok none := by
  unfold holder
  rw [hrow]
  exact if_pos hexpired

/-! ## Locks that are free of a token -/

/-- A lock is not held with a token: it is somebody else's, or was given back. -/
def FreeOf (s : Store) (key token : String) : Prop :=
  ∀ row, s.lock? key = some row → row.token = token → row.deadline = 0

/-- Nothing is done to the locks that are not held with a token. -/
def Spares (token : String) (s t : Store) : Prop :=
  ∀ key row, s.lock? key = some row → row.token ≠ token → t.lock? key = some row

namespace Spares

@[refl] theorem refl (token : String) (s : Store) : Spares token s s := fun _ _ hrow _ => hrow

theorem trans {u : Store} (h : Spares token s t) (h' : Spares token t u) : Spares token s u :=
  fun key row hrow hne => h' key row (h key row hrow hne) hne

theorem of_locks (h : t.locks = s.locks) : Spares token s t := by
  intro key row hrow _
  unfold lock? at hrow ⊢
  rw [h, hrow]

theorem renew (s : Store) (now : Instant) (ttl : Nat) (lease : Lease) :
    Spares lease.token s (s.renew now ttl lease).2 :=
  fun _ _ hrow hne => lock?_renew_of_ne hrow hne

theorem release (s : Store) (lease : Lease) : Spares lease.token s (s.release lease) :=
  fun _ _ hrow hne => lock?_release_of_ne hrow hne

end Spares

namespace FreeOf

theorem of_fresh (h : ∀ r ∈ s.locks, r.token ≠ token) : s.FreeOf key token := by
  intro row hrow htoken
  exact absurd htoken (h row (lock?_eq_some hrow).1)

theorem release (s : Store) (lease : Lease) : (s.release lease).FreeOf lease.key lease.token := by
  intro row hrow htoken
  rw [lock?_release] at hrow
  obtain ⟨r, hr, rfl⟩ := Option.map_eq_some_iff.1 hrow
  obtain ⟨-, hkey⟩ := lock?_eq_some hr
  by_cases hmine : r.key = lease.key ∧ r.token = lease.token
  · rw [if_pos hmine]
  · rw [if_neg hmine] at htoken
    exact absurd ⟨hkey, htoken⟩ hmine

theorem turn {tokens : List String} {entered : List Series} (h : s.FreeOf key token)
    (hturn : Turn now tokens entered s t) (hothers : token ∉ tokens) : t.FreeOf key token := by
  cases hturn with
  | aside _ hlocks =>
    unfold FreeOf lock? at h ⊢
    rw [hlocks]
    exact h
  | record => exact h
  | resolve => exact h
  | @acquire ttl token' key' mine =>
    rcases s.acquire_cases now ttl token' key' with ⟨fencing, -, hres⟩ | ⟨-, hres⟩ <;> rw [hres]
    · intro row hrow htoken
      rw [lock?_putLock] at hrow
      by_cases hkey : key' = key
      · rw [if_pos hkey] at hrow
        obtain rfl := Option.some.inj hrow
        exact absurd (htoken ▸ mine) hothers
      · rw [if_neg hkey] at hrow
        exact h row hrow htoken
    · exact h
  | @renew ttl lease mine =>
    intro row hrow htoken
    rw [lock?_renew] at hrow
    obtain ⟨r, hr, rfl⟩ := Option.map_eq_some_iff.1 hrow
    by_cases hheld : r.key = lease.key ∧ r.token = lease.token ∧ now.toMillis ≤ r.deadline
    · rw [if_pos hheld] at htoken
      exact absurd (htoken ▸ hheld.2.1 ▸ mine) hothers
    · rw [if_neg hheld] at htoken ⊢
      exact h r hr htoken
  | @release lease mine =>
    intro row hrow htoken
    rw [lock?_release] at hrow
    obtain ⟨r, hr, rfl⟩ := Option.map_eq_some_iff.1 hrow
    by_cases hmine : r.key = lease.key ∧ r.token = lease.token
    · rw [if_pos hmine]
    · rw [if_neg hmine] at htoken ⊢
      exact h r hr htoken

theorem turns {tokens : List String} {entered : List Series} (h : s.FreeOf key token)
    (hturns : Turns now tokens entered s t) (hothers : token ∉ tokens) : t.FreeOf key token := by
  induction hturns with
  | refl => exact h
  | tail _ hturn ih => exact ih.turn hturn hothers

end FreeOf

end Store

end FolioLedger
