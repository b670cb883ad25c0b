import FolioLedger.Proofs.Replenish.Turns
import FolioLedger.Proofs.Time.Instant

/-!
# What stays under turns

A lock that is held stays as it is whatever others do, as long as they have other tokens and its
deadline does not pass (`Holds.turns`).  A request stays in its table with its tracking id, series
and bounds, and once it is resolved it stays as it was resolved (`KeepsRequests.turns`).
-/

namespace FolioLedger

open Relation

namespace Lock

/-- A lock that is taken after 1970 gets a deadline after 1970. -/
theorem deadline_pos {now : Millis} (h : 0 < now) (ttl : Nat) : 0 < deadline now ttl := by
  have hpos : (0 : Int) < now := h
  show (0 : Int) < _
  unfold deadline saturate
  omega

theorem isExpired_eq_false {deadline now : Millis} (hpos : 0 < deadline) (hle : now ≤ deadline) :
    isExpired deadline now = false := by
  unfold isExpired
  simp only [Bool.or_eq_false_iff, decide_eq_false_iff_not]
  exact ⟨Int.ne_of_gt hpos, Int.not_lt.2 hle⟩

end Lock

namespace Store

variable {s t : Store} {now : Instant} {tokens : List String} {entered : List Series}
  {key token : String} {deadline : Millis}

/-! ## Locks -/

/-- A change of rows that keeps their keys changes what is found. -/
theorem find?_map_of_key {f : LockRow → LockRow} (hf : ∀ r, (f r).key = r.key)
    (rows : List LockRow) (key : String) :
    (rows.map f).find? (·.key = key) = (rows.find? (·.key = key)).map f := by
  rw [List.find?_map]
  congr 2
  funext r
  simp [hf]

theorem lock?_putLock (s : Store) (row : LockRow) (key : String) :
    (s.putLock row).lock? key = if row.key = key then some row else s.lock? key := by
  unfold lock? putLock
  by_cases hold : s.locks.any (·.key = row.key)
  · rw [if_pos hold, find?_map_of_key fun r => by split <;> simp [*]]
    cases hrow : s.locks.find? (·.key = key) with
    | none =>
      rw [List.find?_eq_none] at hrow
      obtain ⟨r, hr, hkey⟩ := List.any_eq_true.1 hold
      have hne : row.key ≠ key := fun h => hrow r hr (by simpa [h] using hkey)
      rw [if_neg hne, Option.map_none]
    | some r =>
      have hkey : r.key = key := by simpa using List.find?_some hrow
      rw [Option.map_some, hkey]
      by_cases hsame : row.key = key
      · rw [if_pos hsame.symm, if_pos hsame]
      · rw [if_neg (Ne.symm hsame), if_neg hsame]
  · rw [if_neg hold, List.find?_append]
    by_cases hsame : row.key = key
    · have hnone : s.locks.find? (·.key = key) = none := by
        rw [List.find?_eq_none]
        intro r hr hkey
        exact hold (List.any_eq_true.2 ⟨r, hr, by simpa [hsame] using hkey⟩)
      simp [hnone, hsame]
    · simp [hsame]

/-- The lock is held with a token up to a deadline. -/
def Holds (s : Store) (key token : String) (deadline : Millis) : Prop :=
  ∃ row, s.lock? key = some row ∧ row.token = token ∧ row.deadline = deadline

theorem lock?_renew (s : Store) (now : Instant) (ttl : Nat) (lease : Lease) (key : String) :
    (s.renew now ttl lease).2.lock? key = (s.lock? key).map fun r =>
      if r.key = lease.key ∧ r.token = lease.token ∧ now.toMillis ≤ r.deadline then
        { r with deadline := Lock.deadline now.toMillis ttl } else r := by
  simp only [Store.renew]
  split
  · unfold lock?
    rw [find?_map_of_key fun r => by split <;> rfl]
  · next hlost =>
    cases hrow : s.lock? key with
    | none => rfl
    | some r =>
      -- No row is the holder's, and so neither is this one.
      rw [Option.map_some, if_neg]
      intro hheld
      have hmem : r ∈ s.locks := List.mem_of_find?_eq_some hrow
      exact hlost (List.any_eq_true.2 ⟨r, hmem, by simpa using hheld⟩)

theorem lock?_release (s : Store) (lease : Lease) (key : String) :
    (s.release lease).lock? key = (s.lock? key).map fun r =>
      if r.key = lease.key ∧ r.token = lease.token then { r with deadline := 0 } else r := by
  unfold release lock?
  exact find?_map_of_key (fun r => by split <;> rfl) s.locks key

theorem lock?_renew_of_ne {row : LockRow} {ttl : Nat} {lease : Lease}
    (hrow : s.lock? key = some row) (hne : row.token ≠ lease.token) :
    (s.renew now ttl lease).2.lock? key = some row := by
  rw [lock?_renew, hrow, Option.map_some, if_neg fun hheld => hne hheld.2.1]

theorem lock?_release_of_ne {row : LockRow} {lease : Lease} (hrow : s.lock? key = some row)
    (hne : row.token ≠ lease.token) : (s.release lease).lock? key = some row := by
  rw [lock?_release, hrow, Option.map_some, if_neg fun hmine => hne hmine.2]

/-- Whoever has no token of it leaves the row of a held lock alone. -/
theorem Turn.lock?_of_held {row : LockRow} (hturn : Turn now tokens entered s t)
    (hrow : s.lock? key = some row) (hothers : row.token ∉ tokens)
    (hlive : Lock.isExpired row.deadline now.toMillis = false) : t.lock? key = some row := by
  cases hturn with
  | aside _ hlocks =>
    unfold lock?
    rw [hlocks]
    exact hrow
  | record => exact hrow
  | resolve => exact hrow
  | @acquire ttl token' key' mine =>
    rcases s.acquire_cases now ttl token' key' with ⟨fencing, hfree, hres⟩ | ⟨-, hres⟩ <;> rw [hres]
    · -- Whoever asks for this lock is told that it is busy.
      have hkey : key' ≠ key := by
        rintro rfl
        rcases hfree with ⟨hnone, -⟩ | ⟨row', hrow', hexpired, -⟩
        · rw [hnone] at hrow
          cases hrow
        · obtain rfl := Option.some.inj (hrow'.symm.trans hrow)
          rw [hlive] at hexpired
          cases hexpired
      rw [lock?_putLock, if_neg hkey, hrow]
    · exact hrow
  | renew ttl mine => exact lock?_renew_of_ne hrow fun h => hothers (h ▸ mine)
  | release mine => exact lock?_release_of_ne hrow fun h => hothers (h ▸ mine)

theorem Turns.lock?_of_held {row : LockRow} (hturns : Turns now tokens entered s t)
    (hrow : s.lock? key = some row) (hothers : row.token ∉ tokens)
    (hlive : Lock.isExpired row.deadline now.toMillis = false) : t.lock? key = some row := by
  induction hturns with
  | refl => exact hrow
  | tail _ hturn ih => exact hturn.lock?_of_held ih hothers hlive

theorem Holds.turns (h : s.Holds key token deadline) (hturns : Turns now tokens entered s t)
    (hothers : token ∉ tokens) (hlive : Lock.isExpired deadline now.toMillis = false) :
    t.Holds key token deadline := by
  obtain ⟨row, hrow, rfl, rfl⟩ := h
  exact ⟨row, Turns.lock?_of_held hturns hrow hothers hlive, rfl, rfl⟩

/-- A lock is given only while nobody holds it, and to whoever asked, up to the deadline of the
lease. -/
structure Grants (s : Store) (now : Instant) (token key : String) (lease : Lease) (t : Store) :
    Prop where
  drawn : lease.token = token
  holds : t.Holds key token lease.deadline.toMillis
  deadline_pos : 0 < now.toMillis → 0 < lease.deadline.toMillis
  free : ∀ token' deadline, s.Holds key token' deadline →
    Lock.isExpired deadline now.toMillis = true

theorem acquire_grants {ttl : Nat} {lease : Lease}
    (h : s.acquire now ttl token key = (.ok lease, t)) : s.Grants now token key lease t := by
  obtain ⟨hfree, fencing, deadline, hms, rfl, rfl⟩ := acquire_eq_ok h
  have htime := Instant.toMillis_of_ofMillis hms
  have hput := s.lock?_putLock ⟨key, token, fencing, Lock.deadline now.toMillis ttl⟩ key
  rw [if_pos rfl] at hput
  refine ⟨rfl, ⟨_, hput, rfl, htime.symm⟩, fun hnow => ?_, fun token' deadline' hheld => ?_⟩
  · show 0 < deadline.toMillis
    rw [htime]
    exact Lock.deadline_pos hnow ttl
  · obtain ⟨row, hrow, -, rfl⟩ := hheld
    exact hfree row hrow

end Store

/-! ## Requests -/

/-- The row of a request that the authority took under a tracking id. -/
structure RequestRow.Stores (r : RequestRow) (trackingId : String) (request : RangeRequest) :
    Prop where
  trackingId : r.trackingId = trackingId
  series : r.series = request.series
  first : r.first = request.first
  last : r.last = request.last

/-- What may become of a request: it is resolved once. -/
structure RequestRow.Kept (r r' : RequestRow) : Prop where
  rest : r' = { r with state := r'.state }
  state : r'.state = r.state ∨ r.state = .pending

namespace RequestRow.Kept

@[refl] theorem refl (r : RequestRow) : r.Kept r := ⟨rfl, .inl rfl⟩

theorem trans {r r' r'' : RequestRow} (h : r.Kept r') (h' : r'.Kept r'') : r.Kept r'' where
  rest := by rw [h'.rest, h.rest]
  state := by
    rcases h'.state with h1 | h1
    · exact h1 ▸ h.state
    · rcases h.state with h2 | h2
      · exact .inr (h2 ▸ h1)
      · exact .inr h2

theorem stores {r r' : RequestRow} {trackingId : String} {request : RangeRequest}
    (h : r.Kept r') (hr : r.Stores trackingId request) : r'.Stores trackingId request := by
  rw [h.rest]
  exact ⟨hr.trackingId, hr.series, hr.first, hr.last⟩

end RequestRow.Kept

namespace Store

variable {s t u : Store} {now : Instant} {tokens : List String} {entered : List Series}

/-- Every request of `s` is in `t`, and became what may become of it. -/
def KeepsRequests (s t : Store) : Prop :=
  ∀ r ∈ s.requests, ∃ r' ∈ t.requests, r.Kept r'

namespace KeepsRequests

@[refl] theorem refl (s : Store) : KeepsRequests s s := fun r hr => ⟨r, hr, .refl r⟩

theorem trans (h : KeepsRequests s t) (h' : KeepsRequests t u) : KeepsRequests s u := by
  intro r hr
  obtain ⟨r', hr', hkept⟩ := h r hr
  obtain ⟨r'', hr'', hkept'⟩ := h' r' hr'
  exact ⟨r'', hr'', hkept.trans hkept'⟩

theorem of_eq (h : t.requests = s.requests) : KeepsRequests s t :=
  fun r hr => ⟨r, h ▸ hr, .refl r⟩

theorem turn (h : Turn now tokens entered s t) : KeepsRequests s t := by
  cases h with
  | aside hrequests _ => exact of_eq hrequests
  | record => exact fun r hr => ⟨r, List.mem_append_left _ hr, .refl r⟩
  | resolve trackingId =>
    intro r hr
    refine ⟨_, List.mem_map_of_mem hr, ?_⟩
    split
    · next hmeets => exact ⟨rfl, .inr (by simpa [RequestRow.isPending] using hmeets.2)⟩
    · exact .refl r
  | acquire ttl key => exact of_eq (acquire_requests ..)
  | renew ttl => exact of_eq (renew_requests ..)
  | release => exact of_eq rfl

theorem turns (h : Turns now tokens entered s t) : KeepsRequests s t := by
  induction h with
  | refl => exact refl s
  | tail _ hturn ih => exact ih.trans (turn hturn)

theorem run (s : Store) (es : List Event) : KeepsRequests s (s.run es) := by
  induction es generalizing s with
  | nil => exact refl s
  | cons e es ih => exact (turns (e.turns s)).trans (ih (s.after e))

end KeepsRequests

/-- A pending request was there before, or somebody entered it. -/
theorem Turn.mem_or_entered (h : Turn now tokens entered s t) {r : RequestRow}
    (hr : r ∈ t.requests) (hpending : r.state = .pending) :
    r ∈ s.requests ∨ r.series ∈ entered := by
  cases h with
  | aside hrequests _ => exact .inl (hrequests ▸ hr)
  | record _ _ _ _ mine =>
    rcases List.mem_append.1 hr with hold | hnew
    · exact .inl hold
    · obtain rfl := List.mem_singleton.1 hnew
      exact .inr mine
  | resolve trackingId final =>
    obtain ⟨q, hq, rfl⟩ := List.mem_map.1 hr
    split at hpending
    · exact absurd hpending final
    · next hother =>
      rw [if_neg hother]
      exact .inl hq
  | acquire ttl key => exact .inl (acquire_requests .. ▸ hr)
  | renew ttl => exact .inl (renew_requests .. ▸ hr)
  | release => exact .inl hr

theorem Turns.mem_or_entered (h : Turns now tokens entered s t) {r : RequestRow}
    (hr : r ∈ t.requests) (hpending : r.state = .pending) :
    r ∈ s.requests ∨ r.series ∈ entered := by
  induction h with
  | refl => exact .inl hr
  | tail _ hturn ih =>
    rcases hturn.mem_or_entered hr hpending with hold | hentered
    · exact ih hold
    · exact .inr hentered

theorem run_mem_or_entered (s : Store) (es : List Event) {r : RequestRow}
    (hr : r ∈ (s.run es).requests) (hpending : r.state = .pending) :
    r ∈ s.requests ∨ ∃ e ∈ es, r.series ∈ e.call.entered := by
  induction es generalizing s with
  | nil => exact .inl hr
  | cons e es ih =>
    rcases ih (s.after e) hr with hold | ⟨e', he', hentered⟩
    · rcases Turns.mem_or_entered (e.turns s) hold hpending with hold | hentered
      · exact .inl hold
      · exact .inr ⟨e, List.mem_cons_self, hentered⟩
    · exact .inr ⟨e', List.mem_cons_of_mem e he', hentered⟩

end Store

end FolioLedger
