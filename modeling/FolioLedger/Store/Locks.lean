import FolioLedger.Store.Basic

/-!
# Locks

A lock is held for a limited time.  Whoever takes a lock over gets a greater fencing number, and
only the holder's token renews or releases it.  The deadline is written before it is given back as
an instant, so a deadline beyond the calendar is kept although the caller gets a failure.
-/

namespace FolioLedger

/-- A lock that is held. -/
structure Lease where
  key : String
  /-- Tells the holder. -/
  token : String
  /-- Grows each time the lock changes hands. -/
  fencing : Nat
  deadline : Instant
deriving DecidableEq

namespace Lock

/-- The nearest number that fits a signed word of 64 bits. -/
def saturate (n : Int) : Int :=
  max (-9223372036854775808) (min n 9223372036854775807)

/-- The deadline of a lock that is taken for `ttl` milliseconds. -/
def deadline (acquiredAt : Millis) (ttl : Int) : Millis :=
  saturate (acquiredAt + saturate ttl)

/-- Whether a lock is free: released, or past its deadline. -/
def isExpired (deadline now : Millis) : Bool :=
  deadline = 0 || deadline < now

/-- The name of the lock on the replenishment of a series. -/
def replenishment (series : Series) : String :=
  "replenish:" ++ series.issuer ++ ":" ++ series.docType

end Lock

namespace Store

/-- The row of a lock. -/
def lock? (s : Store) (key : String) : Option LockRow :=
  s.locks.find? (·.key = key)

/-- The lease by which a lock is held. -/
def holder (s : Store) (now : Instant) (key : String) : Except Failure (Option Lease) :=
  match s.lock? key with
  | some row =>
    if Lock.isExpired row.deadline now.toMillis then .ok none
    else (Instant.ofMillis row.deadline).map fun t => some ⟨key, row.token, row.fencing, t⟩
  | none => .ok none

/-- Puts a row in the place of the one of the same lock, or at the end. -/
def putLock (s : Store) (row : LockRow) : Store :=
  { s with locks :=
      if s.locks.any (·.key = row.key) then
        s.locks.map fun r => if r.key = row.key then row else r
      else s.locks ++ [row] }

/-- Takes a lock for `ttl` milliseconds under a fresh token, unless it is held. -/
def acquire (s : Store) (now : Instant) (ttl : Nat) (token key : String) :
    Except Failure Lease × Store :=
  let deadline := Lock.deadline now.toMillis ttl
  let grant := fun (fencing : Nat) =>
    ((Instant.ofMillis deadline).map fun t => (⟨key, token, fencing, t⟩ : Lease),
      s.putLock ⟨key, token, fencing, deadline⟩)
  match s.lock? key with
  | none => grant 1
  | some row =>
    if Lock.isExpired row.deadline now.toMillis then grant (row.fencing + 1)
    else (.error (.lockBusy key), s)

/-- Holds a lock for another `ttl` milliseconds, unless it was lost. -/
def renew (s : Store) (now : Instant) (ttl : Nat) (lease : Lease) :
    Except Failure Lease × Store :=
  let deadline := Lock.deadline now.toMillis ttl
  let held := fun (r : LockRow) =>
    r.key = lease.key ∧ r.token = lease.token ∧ now.toMillis ≤ r.deadline
  if s.locks.any (held ·) then
    ((Instant.ofMillis deadline).map fun t => { lease with deadline := t },
      { s with locks := s.locks.map fun r =>
          if held r then { r with deadline := deadline } else r })
  else (.error (.lockLost lease.key), s)

/-- Gives a lock back; a lock that was lost stays as it is. -/
def release (s : Store) (lease : Lease) : Store :=
  { s with locks := s.locks.map fun r =>
      if r.key = lease.key ∧ r.token = lease.token then { r with deadline := 0 } else r }

end Store

end FolioLedger
