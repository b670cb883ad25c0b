import FolioLedger.Proofs.Ledger.Coverage

/-!
# Sessions

An operation is defined as one step from a store to the next.  What reaches the tables is a row of
statements, and each of them may fail after others have been carried out: the row of a range is
in its table before the first of its folios, and a folio is used before it is read back.  A
`Session` is such a row of statements.  It keeps whatever was written before a failure, except
inside `immediate`, which puts the tables back.

Each operation is written out as a session, with the constraints of the tables where they are
checked.  `CarriesOut` says that a session comes to a step, and `Attempts` that it does so unless it
fails; inside a transaction the one follows from the other (`Attempts.immediate`).
-/

namespace FolioLedger

open Store

/-- A store in use, and what has been told so far. -/
structure Scene where
  store : Store
  outbox : Outbox

/-- Work on a scene, statement by statement.  A failure ends the work and undoes none of it. -/
structure Session (α : Type) where
  run : Scene → Except Failure α × Scene

namespace Session

variable {α β : Type}

instance : Monad Session where
  pure a := ⟨fun σ => (.ok a, σ)⟩
  bind x f := ⟨fun σ =>
    match x.run σ with
    | (.ok a, σ') => (f a).run σ'
    | (.error failure, σ') => (.error failure, σ')⟩

/-! ## Statements -/

/-- Goes on with a result, or fails with its failure. -/
def check (result : Except Failure α) : Session α := ⟨fun σ => (result, σ)⟩

def fail (failure : Failure) : Session α := check (.error failure)

def read (query : Store → α) : Session α := ⟨fun σ => (.ok (query σ.store), σ)⟩

def write (change : Store → Store) : Session Unit :=
  ⟨fun σ => (.ok (), { σ with store := change σ.store })⟩

def tell (o : Outbox) : Session Unit := ⟨fun σ => (.ok (), { σ with outbox := σ.outbox ++ o })⟩

/-- A transaction: if it fails, the tables are put back to where it found them.  What has been told
stays told. -/
def immediate (body : Session α) : Session α := ⟨fun σ =>
  match body.run σ with
  | (.ok a, σ') => (.ok a, σ')
  | (.error failure, σ') => (.error failure, { σ' with store := σ.store })⟩

/-- Adds the row of a range, within the constraints of its table. -/
def insertRange (row : RangeRow) : Session Unit := do
  if row.expiresAt ≤ row.authorizedAt then fail (.storage .expiryNotLater)
  if ← read (·.ranges.any (·.id = row.id)) then fail (.storage .rangeIdTaken)
  write fun s => { s with ranges := s.ranges ++ [row] }

/-- Adds the row of a folio, within the constraints of its table.  The medium refuses the number
`faulty`. -/
def insertFolio (faulty : Option Nat) (row : FolioRow) : Session Unit := do
  if faulty = some row.number then fail (.storage .full)
  if (← read (·.folio? row.series row.number)) ≠ none then
    fail (.storage (.stated
      "UNIQUE constraint failed: folios.issuer, folios.doc_type, folios.number"))
  if (← read (·.range? row.rangeId)) = none then
    fail (.storage (.stated "FOREIGN KEY constraint failed"))
  write fun s => { s with folios := s.folios ++ [row] }

/-- Adds the row of a request, within the constraints of its table. -/
def insertRequest (row : RequestRow) : Session Unit := do
  if ← read (·.requests.any fun r =>
      r.trackingId = row.trackingId ∨ (r.series = row.series ∧ r.isPending)) then
    fail (.invalidRequest (.alreadyRequested row.series row.trackingId))
  write fun s => { s with requests := s.requests ++ [row] }

/-- Marks a range without available folios as exhausted; tells whether it was active until then. -/
def settle (rangeId : String) : Session Bool := do
  let spent ← read (·.isSpent rangeId)
  write (·.settle rangeId)
  return spent

/-! ## Operations -/

/-- The row of a range and the rows of its folios. -/
def addRange (faulty : Option Nat) (id : String) (now : Instant) (new : NewRange) :
    Session Unit := do
  check (← read (·.checkNumbers new))
  insertRange (new.toRow id now)
  forM (new.folios id) (insertFolio faulty)

def register (limit : Nat) (faulty : Option Nat) (id : String) (now : Instant) (new : NewRange) :
    Session Range := do
  check (new.check limit)
  check (checkNumber new.first)
  check (checkNumber new.last)
  immediate (addRange faulty id now new)
  return new.toRange id now

/-- The folio is used before it is read back. -/
def takeNext (now : Instant) (series : Series) (document : Option String) :
    Session Assignment := do
  let some row ← read fun s => leastNumber (s.assignable series now.toMillis)
    | fail (← read (·.shortage series now.toMillis))
  let state := FolioState.used now.toMillis document
  write (·.setFolio series row.number state)
  let folio ← check { row with state := state }.toFolio
  let exhausted ← settle row.rangeId
  return ⟨folio, ← read (·.countAvailable series now.toMillis), exhausted⟩

/-- The stock is looked at before a folio is handed out. -/
def assign (d : Desk) (now : Instant) (series : Series) (document : Option String) :
    Session Assignment := do
  tell ⟨[], ← read (d.lowStock · now series)⟩
  let a ← immediate (takeNext now series document)
  tell ⟨d.exhaustion series a.remaining, []⟩
  return a

/-- The folio is read back after its range has been settled. -/
def voidFolio (now : Instant) (series : Series) (number : Nat) (reason : String) :
    Session (Folio × Nat) := do
  let some row ← read (·.folio? series number) | fail (.notFound (.folio series number))
  if ¬ row.isAvailable then
    fail (.invalidTransition (.voiding series number row.state.status))
  write (·.setFolio series number (.void now.toMillis reason))
  let _ ← settle row.rangeId
  let some voided ← read (·.folio? series number)
    | fail (.storage (.stated "voided folio vanished"))
  let folio ← check voided.toFolio
  return (folio, ← read (·.countAvailable series now.toMillis))

def void (d : Desk) (now : Instant) (series : Series) (number : Nat) (reason : String) :
    Session Folio := do
  if isBlank reason then fail (.invalidRequest .missingVoidReason)
  check (checkNumber number)
  let (folio, remaining) ← immediate (voidFolio now series number reason)
  tell ⟨d.exhaustion series remaining, []⟩
  return folio

def bindFolio (series : Series) (number : Nat) (document : String) : Session Folio := do
  let some row ← read (·.folio? series number) | fail (.notFound (.folio series number))
  let folio ← check row.toFolio
  match row.state with
  | .used since none =>
    write (·.setFolio series number (.used since (some document)))
    return { folio with documentId := some document }
  | .used _ (some bound) =>
    if bound = document then return folio
    else fail (.invalidTransition (.rebinding series number bound document))
  | state => fail (.invalidTransition (.binding series number state.status))

def bind (series : Series) (number : Nat) (document : String) : Session Folio := do
  check (checkNumber number)
  immediate (bindFolio series number document)

def recordRequest (r : ReplenishmentRequest) : Session Unit := do
  if r.status ≠ .pending then fail (.invalidRequest (.notPending r.status))
  check (checkNumber r.first)
  check (checkNumber r.last)
  insertRequest ⟨r.trackingId, r.series, r.first, r.last, r.requestedAt.toMillis, .pending⟩

/-- The update comes first, and what was found is asked for only when it met no row. -/
def resolve (trackingId : String) (state : RequestState) : Session Unit := do
  let hits ← read (·.requests.countP fun r => r.trackingId = trackingId ∧ r.isPending)
  write fun s => { s with requests := s.requests.map fun r =>
    if r.trackingId = trackingId ∧ r.isPending then { r with state := state } else r }
  if hits = 0 then
    let current ← check (← read (·.getRequest trackingId))
    fail (.invalidTransition (.resolving trackingId current.status state.status))

/-! ## Sessions at work -/

section

variable (f : α → Session β) (σ : Scene)

@[simp] theorem run_pure (a : α) : (pure a : Session α).run σ = (.ok a, σ) := rfl

@[simp] theorem run_check (result : Except Failure α) : (check result).run σ = (result, σ) := rfl

@[simp] theorem run_check_ok_bind (a : α) : (check (.ok a) >>= f).run σ = (f a).run σ := rfl

@[simp] theorem run_check_error_bind (failure : Failure) :
    (check (.error failure) >>= f).run σ = (.error failure, σ) := rfl

@[simp] theorem run_fail (failure : Failure) :
    (fail failure : Session α).run σ = (.error failure, σ) := rfl

@[simp] theorem run_fail_bind (failure : Failure) :
    ((fail failure : Session α) >>= f).run σ = (.error failure, σ) := rfl

@[simp] theorem run_read_bind (query : Store → α) :
    (read query >>= f).run σ = (f (query σ.store)).run σ := rfl

@[simp] theorem run_write (change : Store → Store) :
    (write change).run σ = (.ok (), { σ with store := change σ.store }) := rfl

@[simp] theorem run_write_bind (change : Store → Store) (g : Unit → Session β) :
    (write change >>= g).run σ = (g ()).run { σ with store := change σ.store } := rfl

@[simp] theorem run_tell_bind (o : Outbox) (g : Unit → Session β) :
    (tell o >>= g).run σ = (g ()).run { σ with outbox := σ.outbox ++ o } := rfl

@[simp] theorem run_settle_bind (rangeId : String) (g : Bool → Session β) :
    (settle rangeId >>= g).run σ =
      (g (σ.store.isSpent rangeId)).run { σ with store := σ.store.settle rangeId } := rfl

theorem run_bind_of_ok {x : Session α} {a : α} {σ' : Scene} (h : x.run σ = (.ok a, σ')) :
    (x >>= f).run σ = (f a).run σ' := by
  show (match x.run σ with
    | (.ok a, σ') => (f a).run σ'
    | (.error failure, σ') => (.error failure, σ')) = _
  rw [h]

theorem run_bind_of_error {x : Session α} {failure : Failure} {σ' : Scene}
    (h : x.run σ = (.error failure, σ')) : (x >>= f).run σ = (.error failure, σ') := by
  show (match x.run σ with
    | (.ok a, σ') => (f a).run σ'
    | (.error failure, σ') => (.error failure, σ')) = _
  rw [h]

theorem run_immediate_of_ok {x : Session α} {a : α} {σ' : Scene} (h : x.run σ = (.ok a, σ')) :
    (immediate x).run σ = (.ok a, σ') := by
  simp only [immediate, h]

theorem run_immediate_of_error {x : Session α} {failure : Failure} {σ' : Scene}
    (h : x.run σ = (.error failure, σ')) :
    (immediate x).run σ = (.error failure, { σ' with store := σ.store }) := by
  simp only [immediate, h]

end

/-! ## What a session comes to -/

end Session

/-- What is left of a scene by a step: its result, the store that it gives, and what it tells. -/
def Scene.leave {α : Type} (σ : Scene) (step : Except Failure α × Store × Outbox) :
    Except Failure α × Scene :=
  (step.1, ⟨step.2.1, σ.outbox ++ step.2.2⟩)

/-- The step of an operation on the tables.  It tells nothing, and one that fails leaves the store
that it found. -/
def Store.settled {α : Type} (s : Store) :
    Except Failure (α × Store) → Except Failure α × Store × Outbox
  | .ok (a, t) => (.ok a, t, .empty)
  | .error failure => (.error failure, s, .empty)

theorem Outbox.append_assoc (a b c : Outbox) : a ++ b ++ c = a ++ (b ++ c) := by
  show Outbox.append (Outbox.append a b) c = Outbox.append a (Outbox.append b c)
  simp [Outbox.append]

@[simp] theorem Outbox.mk_append_mk (as bs : List Alert) (ts us : List Trigger) :
    (⟨as, ts⟩ : Outbox) ++ ⟨bs, us⟩ = ⟨as ++ bs, ts ++ us⟩ := rfl

@[simp] theorem Outbox.append_empty (o : Outbox) : o ++ Outbox.empty = o := by
  show Outbox.append o Outbox.empty = o
  simp [Outbox.append, Outbox.empty]

namespace Scene

variable {α : Type} (s : Store) (o : Outbox)

@[simp] theorem leave_quiet (result : Except Failure α) (t : Store) :
    leave ⟨s, o⟩ (result, t, .empty) = (result, ⟨t, o⟩) := by
  simp [leave]

theorem leave_settled_ok (a : α) (t : Store) :
    leave ⟨s, o⟩ (s.settled (.ok (a, t))) = (.ok a, ⟨t, o⟩) :=
  leave_quiet ..

theorem leave_settled_error (failure : Failure) :
    leave ⟨s, o⟩ (s.settled (α := α) (.error failure)) = (.error failure, ⟨s, o⟩) :=
  leave_quiet ..

end Scene

namespace Session

/-- On a store the session comes to what the step says. -/
def CarriesOut (x : Session α) (s : Store) (step : Except Failure α × Store × Outbox) : Prop :=
  ∀ o, x.run ⟨s, o⟩ = Scene.leave ⟨s, o⟩ step

/-- On a store the session comes to the result, and tells nothing.  When it fails, anything may be
left in the tables. -/
def Attempts (x : Session α) (s : Store) (result : Except Failure (α × Store)) : Prop :=
  ∀ o, (∃ a t, result = .ok (a, t) ∧ x.run ⟨s, o⟩ = (.ok a, ⟨t, o⟩)) ∨
    ∃ failure t, result = .error failure ∧ x.run ⟨s, o⟩ = (.error failure, ⟨t, o⟩)

variable {γ : Type} {s : Store}

/-- What a transaction attempts it carries out, or nothing. -/
theorem Attempts.immediate {x : Session α} {result : Except Failure (α × Store)}
    (h : Attempts x s result) : CarriesOut (immediate x) s (s.settled result) := by
  intro o
  rcases h o with ⟨a, t, rfl, hrun⟩ | ⟨failure, t, rfl, hrun⟩
  · rw [run_immediate_of_ok _ hrun, Scene.leave_settled_ok]
  · rw [run_immediate_of_error _ hrun, Scene.leave_settled_error]

/-- A session and a step may begin with the same check. -/
theorem CarriesOut.check_bind {x : Except Failure γ} {f : γ → Session α}
    {g : γ → Except Failure (α × Store)}
    (h : ∀ c, x = .ok c → CarriesOut (f c) s (s.settled (g c))) :
    CarriesOut (check x >>= f) s (s.settled (x >>= g)) := by
  intro o
  cases x with
  | ok c => exact h c rfl o
  | error failure => exact (Scene.leave_settled_error s o failure).symm

end Session

end FolioLedger
