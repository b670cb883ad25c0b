import FolioLedger.Config.Basic
import FolioLedger.Proofs.Locks.Rows

/-!
# Lock operations that fail

Whoever asks for a lock and is given no lease should leave no trace (`Store.AllOrNothing`).  That is so
as long as the deadline of the lock can be named as an instant (`Lock.Dated`).  The row is written before
the deadline is turned into one, so beyond the end of the calendar a lock is taken although its taker is
told of a failure.  Nobody has a lease by which it could be given back, and its deadline does not pass:
the lock is refused to everybody from then on (`Store.ShutsOut`).  A lease that is renewed has its
deadline moved in the same way.  `lock_all_or_nothing_iff` says exactly when a failure leaves no trace.
-/

namespace FolioLedger

/-! ## Deadlines that can be named -/

namespace Lock

theorem saturate_eq_min {n : Int} (h : -9223372036854775808 ≤ n) :
    saturate n = (min n 9223372036854775807 : Int) := by
  unfold saturate
  omega

/-- A deadline is clipped at the upper end only. -/
theorem deadline_eq_min {ms : Int} (h : Instant.minSecond * 1000 ≤ ms) (ttl : Nat) : deadline ms ttl =
    (min (ms + min (ttl : Int) 9223372036854775807) 9223372036854775807 : Int) := by
  unfold Instant.minSecond at h
  have hinner : saturate (ttl : Int) = min (ttl : Int) 9223372036854775807 :=
    saturate_eq_min (by omega)
  unfold deadline
  rw [hinner]
  exact saturate_eq_min (by omega)

/-- The deadline of a lock that is taken for `ttl` milliseconds lies within the calendar. -/
def Dated (now : Instant) (ttl : Nat) : Prop := (ttl : Int) + now.toMillis ≤ Instant.lastMillis

instance (now : Instant) (ttl : Nat) : Decidable (Dated now ttl) :=
  inferInstanceAs (Decidable (_ ≤ _))

variable {now : Instant} {ttl : Nat}

/-- What is clipped lies far beyond the calendar. -/
theorem lastMillis_lt_deadline_iff :
    Instant.lastMillis < (deadline now.toMillis ttl : Int) ↔ ¬ Dated now ttl := by
  have hmin := now.minSecond_le_toMillis
  rw [deadline_eq_min hmin]
  unfold Dated Instant.minSecond Instant.lastMillis Instant.maxSecond at *
  omega

theorem minSecond_le_deadline :
    Instant.minSecond * 1000 ≤ (deadline now.toMillis ttl : Int) := by
  have hmin := now.minSecond_le_toMillis
  rw [deadline_eq_min hmin]
  unfold Instant.minSecond at *
  omega

theorem dated_iff : Dated now ttl ↔ ∃ d, Instant.ofMillis (deadline now.toMillis ttl) = .ok d := by
  rw [Instant.exists_ofMillis_iff, and_iff_right minSecond_le_deadline, ← Int.not_lt,
    lastMillis_lt_deadline_iff, Decidable.not_not]

theorem ofMillis_deadline (h : ¬ Dated now ttl) : Instant.ofMillis (deadline now.toMillis ttl) =
    .error (.storage (.timeOutOfRange (deadline now.toMillis ttl))) := by
  have hnone := mt dated_iff.2 h
  unfold Instant.ofMillis at hnone ⊢
  cases hread : Instant.ofMillis? (deadline now.toMillis ttl) with
  | none => rfl
  | some d =>
    rw [hread] at hnone
    exact absurd ⟨d, rfl⟩ hnone

end Lock

/-- The row is that of a lease whose deadline has not passed. -/
def LockRow.HeldBy (row : LockRow) (now : Instant) (lease : Lease) : Prop :=
  row.key = lease.key ∧ row.token = lease.token ∧ now.toMillis ≤ row.deadline

instance (row : LockRow) (now : Instant) (lease : Lease) : Decidable (row.HeldBy now lease) :=
  inferInstanceAs (Decidable (_ ∧ _ ∧ _))

namespace Store

variable {s t : Store} {now later : Instant} {ttl : Nat} {key token : String} {lease : Lease}

/-! ## Locks that are held beyond the calendar -/

/-- The lock is held with a token and its deadline lies beyond the calendar. -/
def HeldForGood (s : Store) (key token : String) : Prop :=
  ∃ row, s.lock? key = some row ∧ row.token = token ∧ Instant.lastMillis < row.deadline

/-- Whatever is done without a token, the lock is refused to everybody at any time. -/
def ShutsOut (s : Store) (key token : String) : Prop :=
  ∀ es : List Event, (∀ e ∈ es, e.clock.Readable ∧ token ∉ e.call.tokens) →
    ∀ (later : Instant) (ttl : Nat) (token' : String), later.Readable →
      (s.run es).acquire later ttl token' key = (.error (.lockBusy key), s.run es)

theorem isExpired_of_lastMillis_lt {row : LockRow} (h : Instant.lastMillis < row.deadline)
    (hlater : later.Readable) : Lock.isExpired row.deadline later.toMillis = false := by
  have hle := Instant.readable_iff_toMillis.1 hlater
  have hpos : 0 < Instant.lastMillis := by decide
  exact Lock.isExpired_eq_false (Int.lt_trans hpos h) (Int.le_of_lt (Int.lt_of_le_of_lt hle h))

namespace HeldForGood

theorem acquire (h : s.HeldForGood key token) (hlater : later.Readable) (ttl : Nat) (token' : String) :
    s.acquire later ttl token' key = (.error (.lockBusy key), s) := by
  obtain ⟨row, hrow, -, hdeadline⟩ := h
  unfold Store.acquire
  simp only [hrow, isExpired_of_lastMillis_lt hdeadline hlater, Bool.false_eq_true, if_false]

theorem after (h : s.HeldForGood key token) {e : Event} (hclock : e.clock.Readable)
    (hothers : token ∉ e.call.tokens) : (s.after e).HeldForGood key token := by
  obtain ⟨row, hrow, rfl, hdeadline⟩ := h
  exact ⟨row, Turns.lock?_of_held (e.turns s) hrow hothers
    (isExpired_of_lastMillis_lt hdeadline hclock), rfl, hdeadline⟩

theorem run (h : s.HeldForGood key token) {es : List Event}
    (hes : ∀ e ∈ es, e.clock.Readable ∧ token ∉ e.call.tokens) :
    (s.run es).HeldForGood key token := by
  induction es generalizing s with
  | nil => exact h
  | cons e es ih =>
    rw [List.forall_mem_cons] at hes
    exact ih (h.after hes.1.1 hes.1.2) hes.2

theorem shutsOut (h : s.HeldForGood key token) : s.ShutsOut key token :=
  fun _ hes _ ttl token' hlater => (h.run hes).acquire hlater ttl token'

/-- A series whose lock is held so is never replenished again. -/
theorem prepare {series : Series} (h : s.HeldForGood (Lock.replenishment series) token)
    (hlater : later.Readable) (m : Monitor) (next : Instant) (token' : String) (threshold : Nat) :
    m.prepare s later next token' series threshold = (.done (.ok .alreadyInFlight), s) := by
  unfold Monitor.prepare
  rw [h.acquire hlater]

end HeldForGood

/-! ## Failures that leave a trace -/

/-- An operation that fails leaves everything as it was. -/
def AllOrNothing (s : Store) (answer : Except Failure Lease × Store) : Prop :=
  ∀ failure, answer.1 = .error failure → answer.2 = s

theorem allOrNothing_of_unchanged {answer : Except Failure Lease × Store} (h : answer.2 = s) :
    AllOrNothing s answer := fun _ _ => h

theorem allOrNothing_of_ok {answer : Except Failure Lease × Store} (h : ∃ lease, answer.1 = .ok lease) :
    AllOrNothing s answer := by
  obtain ⟨lease, h⟩ := h
  intro failure herror
  rw [h] at herror
  cases herror

/-- Beyond the calendar a free lock is taken for good, and its taker is given no lease. -/
theorem acquire_of_not_dated (h : ¬ s.Busy now key) (hdated : ¬ Lock.Dated now ttl) (token : String) :
    (s.acquire now ttl token key).1 =
        .error (.storage (.timeOutOfRange (Lock.deadline now.toMillis ttl))) ∧
      (s.acquire now ttl token key).2.HeldForGood key token ∧
      (s.acquire now ttl token key).2 ≠ s := by
  obtain ⟨fencing, hgrows, hres⟩ := acquire_of_free h ttl token
  have hrow : (s.acquire now ttl token key).2.lock? key =
      some ⟨key, token, fencing, Lock.deadline now.toMillis ttl⟩ := by
    rw [hres, lock?_putLock, if_pos rfl]
  refine ⟨?_, ⟨_, hrow, rfl, Lock.lastMillis_lt_deadline_iff.2 hdated⟩, fun hsame => ?_⟩
  · rw [hres, Lock.ofMillis_deadline hdated]
    rfl
  · rw [hsame] at hrow
    exact Nat.lt_irrefl _ (hgrows _ hrow)

theorem acquire_allOrNothing_iff (s : Store) (now : Instant) (ttl : Nat) (token key : String) :
    AllOrNothing s (s.acquire now ttl token key) ↔ s.Busy now key ∨ Lock.Dated now ttl := by
  by_cases hbusy : s.Busy now key
  · exact iff_of_true (allOrNothing_of_unchanged (by rw [acquire_of_busy hbusy])) (.inl hbusy)
  by_cases hdated : Lock.Dated now ttl
  · obtain ⟨fencing, -, hres⟩ := acquire_of_free hbusy ttl token
    obtain ⟨d, hd⟩ := Lock.dated_iff.1 hdated
    refine iff_of_true (allOrNothing_of_ok ⟨⟨key, token, fencing, d⟩, ?_⟩) (.inr hdated)
    rw [hres, hd]
    rfl
  · obtain ⟨herror, -, hchanged⟩ := acquire_of_not_dated hbusy hdated token
    exact iff_of_false (fun hkept => hchanged (hkept _ herror)) (by tauto)

/-- A lease that is renewed has the deadline of its row moved, whether or not that can be named. -/
theorem renew_of_held (h : ∃ row ∈ s.locks, row.HeldBy now lease) (ttl : Nat) :
    s.renew now ttl lease =
      ((Instant.ofMillis (Lock.deadline now.toMillis ttl)).map fun t => { lease with deadline := t },
        { s with locks := s.locks.map fun r =>
            if r.HeldBy now lease then { r with deadline := Lock.deadline now.toMillis ttl } else r }) := by
  obtain ⟨row, hrow, hheld⟩ := h
  unfold renew
  exact if_pos (List.any_eq_true.2 ⟨row, hrow, decide_eq_true hheld⟩)

theorem renew_of_lost (h : ¬ ∃ row ∈ s.locks, row.HeldBy now lease) (ttl : Nat) :
    s.renew now ttl lease = (.error (.lockLost lease.key), s) := by
  unfold renew
  apply if_neg
  intro hany
  obtain ⟨row, hrow, hheld⟩ := List.any_eq_true.1 hany
  exact h ⟨row, hrow, of_decide_eq_true hheld⟩

theorem renew_eq_self_iff (h : ∃ row ∈ s.locks, row.HeldBy now lease) (ttl : Nat) :
    (s.renew now ttl lease).2 = s ↔
      ∀ row ∈ s.locks, row.HeldBy now lease → row.deadline = Lock.deadline now.toMillis ttl := by
  have hrows : (s.renew now ttl lease).2 = s ↔ (s.locks.map fun r =>
      if r.HeldBy now lease then { r with deadline := Lock.deadline now.toMillis ttl } else r) =
      s.locks.map id := by
    rw [renew_of_held h, List.map_id]
    exact ⟨congrArg Store.locks, fun hlocks => by rw [hlocks]⟩
  rw [hrows, List.map_inj_left]
  apply forall₂_congr
  intro row _
  by_cases hheld : row.HeldBy now lease
  · rw [if_pos hheld]
    simp only [hheld, forall_true_left]
    exact ⟨fun hrow => (congrArg LockRow.deadline hrow).symm, fun hdeadline => by rw [← hdeadline]; rfl⟩
  · rw [if_neg hheld]
    exact iff_of_true rfl fun hmine => absurd hmine hheld

theorem renew_allOrNothing_iff (s : Store) (now : Instant) (ttl : Nat) (lease : Lease) :
    AllOrNothing s (s.renew now ttl lease) ↔ Lock.Dated now ttl ∨
      ∀ row ∈ s.locks, row.HeldBy now lease → row.deadline = Lock.deadline now.toMillis ttl := by
  by_cases hheld : ∃ row ∈ s.locks, row.HeldBy now lease
  · rw [← renew_eq_self_iff hheld]
    by_cases hdated : Lock.Dated now ttl
    · obtain ⟨d, hd⟩ := Lock.dated_iff.1 hdated
      refine iff_of_true (allOrNothing_of_ok ⟨{ lease with deadline := d }, ?_⟩) (.inl hdated)
      rw [renew_of_held hheld, hd]
      rfl
    · have herror : (s.renew now ttl lease).1 =
          .error (.storage (.timeOutOfRange (Lock.deadline now.toMillis ttl))) := by
        rw [renew_of_held hheld, Lock.ofMillis_deadline hdated]
        rfl
      exact ⟨fun hkept => .inr (hkept _ herror),
        fun h => allOrNothing_of_unchanged (h.resolve_left hdated)⟩
  · refine iff_of_true (allOrNothing_of_unchanged (by rw [renew_of_lost hheld])) (.inr ?_)
    exact fun row hrow hmine => absurd ⟨row, hrow, hmine⟩ hheld

/-- Whoever asks for a lock in vain leaves everything as it was, exactly if the lock was busy or its
deadline would lie within the calendar; and a renewal that fails does, exactly if its deadline would or
is the one that stands.  In all other cases the caller is given no lease, and whatever is done by others
the lock is refused to everybody from then on. -/
theorem lock_failures_change_nothing_iff (s : Store) (now : Instant) (ttl : Nat) (token key : String)
    (lease : Lease) :
    (AllOrNothing s (s.acquire now ttl token key) ↔ s.Busy now key ∨ Lock.Dated now ttl) ∧
    (AllOrNothing s (s.renew now ttl lease) ↔ Lock.Dated now ttl ∨
      ∀ row ∈ s.locks, row.HeldBy now lease → row.deadline = Lock.deadline now.toMillis ttl) ∧
    (s.Busy now key ∨ Lock.Dated now ttl ∨
      (s.acquire now ttl token key).1 =
          .error (.storage (.timeOutOfRange (Lock.deadline now.toMillis ttl))) ∧
        (s.acquire now ttl token key).2.ShutsOut key token) := by
  refine ⟨acquire_allOrNothing_iff s now ttl token key, renew_allOrNothing_iff s now ttl lease, ?_⟩
  by_cases hbusy : s.Busy now key
  · exact .inl hbusy
  by_cases hdated : Lock.Dated now ttl
  · exact .inr (.inl hdated)
  obtain ⟨herror, hgood, -⟩ := acquire_of_not_dated hbusy hdated token
  exact .inr (.inr ⟨herror, hgood.shutsOut⟩)

/-- The settings do not bound the time for which a lock is taken. -/
def hoarder : EngineConfig := { requestLockTtlSecs := 9000000000000 }

/-- What is left behind when the lock of a series is asked for under these settings. -/
def hoarded : Store :=
  (empty.acquire .epoch hoarder.monitor.lockTtl "token" (Lock.replenishment ⟨"A", "T"⟩)).2

/-- A trigger fails when it asks for the lock, and the next one finds the series locked although nobody
was given a lease. -/
theorem failed_acquire_keeps_lock :
    hoarder.check = .ok () ∧
    ¬ AllOrNothing empty
      (empty.acquire .epoch hoarder.monitor.lockTtl "token" (Lock.replenishment ⟨"A", "T"⟩)) ∧
    hoarder.monitor.prepare empty .epoch .epoch "token" ⟨"A", "T"⟩ 100 =
      (.done (.error (.storage (.timeOutOfRange 9000000000000000))), hoarded) ∧
    hoarder.monitor.prepare hoarded .epoch .epoch "other" ⟨"A", "T"⟩ 100 =
      (.done (.ok .alreadyInFlight), hoarded) := by
  have hfree : ¬ empty.Busy .epoch (Lock.replenishment ⟨"A", "T"⟩) := by
    rintro ⟨row, hrow, -⟩
    cases hrow
  have hdated : ¬ Lock.Dated .epoch hoarder.monitor.lockTtl := by decide
  obtain ⟨-, hgood, hchanged⟩ := acquire_of_not_dated hfree hdated "token"
  refine ⟨by decide, fun hkept => hchanged (hkept _ rfl), rfl, ?_⟩
  exact hgood.prepare (Instant.readable_iff.2 (by decide)) hoarder.monitor .epoch "other" 100

end Store

end FolioLedger
