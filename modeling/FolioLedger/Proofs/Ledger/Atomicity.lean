import FolioLedger.Proofs.Ledger.Session

/-!
# All or nothing

Every session of an operation carries out its step (`register_carriesOut` and its like), wherever
its statements fail.  So an operation that fails has written nothing and raised no alert, and
neither has a trigger (`failed_operation_leaves_no_trace`).
-/

namespace FolioLedger

open Store

namespace Session

variable {α : Type} {s : Store} {o : Outbox}

/-! ## Registering -/

theorem run_insertFolio (faulty : Option Nat) {row : FolioRow}
    (hfree : s.folio? row.series row.number = none) (hrange : s.range? row.rangeId ≠ none) :
    (insertFolio faulty row).run ⟨s, o⟩ =
      if faulty = some row.number then (.error (.storage .full), ⟨s, o⟩)
      else (.ok (), ⟨{ s with folios := s.folios ++ [row] }, o⟩) := by
  unfold insertFolio
  by_cases hfault : faulty = some row.number
  · simp [hfault]
  · simp [hfault, hfree, hrange]

/-- The rows are added one by one, up to the first that the medium refuses. -/
theorem run_insertFolios (faulty : Option Nat) {rows : List FolioRow}
    (hnodup : (rows.map fun f => (f.series, f.number)).Nodup)
    (hfree : ∀ row ∈ rows, s.folio? row.series row.number = none)
    (hrange : ∀ row ∈ rows, s.range? row.rangeId ≠ none) :
    ((∀ row ∈ rows, faulty ≠ some row.number) ∧
      (forM rows (insertFolio faulty)).run ⟨s, o⟩ =
        (.ok (), ⟨{ s with folios := s.folios ++ rows }, o⟩)) ∨
    ((∃ row ∈ rows, faulty = some row.number) ∧ ∃ t,
      (forM rows (insertFolio faulty)).run ⟨s, o⟩ = (.error (.storage .full), ⟨t, o⟩)) := by
  induction rows generalizing s with
  | nil => exact .inl ⟨by simp, by simp⟩
  | cons row rows ih =>
    obtain ⟨hnew, hnodup⟩ := List.nodup_cons.1 (List.map_cons ▸ hnodup)
    have hfirst := run_insertFolio (o := o) faulty (hfree row (by simp)) (hrange row (by simp))
    rw [List.forM_cons]
    by_cases hfault : faulty = some row.number
    · rw [if_pos hfault] at hfirst
      exact .inr ⟨⟨row, by simp, hfault⟩, s, run_bind_of_error _ _ hfirst⟩
    · rw [if_neg hfault] at hfirst
      rw [run_bind_of_ok _ _ hfirst]
      -- The rows that are left are still free once the first one is there.
      have hfree' : ∀ r ∈ rows,
          Store.folio? { s with folios := s.folios ++ [row] } r.series r.number = none := by
        intro r hr
        have hne : ¬ (row.series = r.series ∧ row.number = r.number) := by
          rintro ⟨hs, hn⟩
          exact hnew (List.mem_map.2 ⟨r, hr, by simp [hs, hn]⟩)
        have hold := hfree r (List.mem_cons_of_mem _ hr)
        unfold folio? at hold ⊢
        rw [List.find?_append, hold]
        simpa using hne
      have hrest := ih hnodup hfree' fun r hr => hrange r (List.mem_cons_of_mem _ hr)
      rcases hrest with ⟨hnone, hrest⟩ | ⟨⟨r, hr, hfault⟩, t, hrest⟩
      · refine .inl ⟨by simpa [hfault] using hnone, ?_⟩
        simpa using hrest
      · exact .inr ⟨⟨r, List.mem_cons_of_mem _ hr, hfault⟩, t, hrest⟩

theorem run_insertRange {row : RangeRow} :
    (insertRange row).run ⟨s, o⟩ =
      if row.expiresAt ≤ row.authorizedAt then (.error (.storage .expiryNotLater), ⟨s, o⟩)
      else if s.ranges.any (·.id = row.id) then (.error (.storage .rangeIdTaken), ⟨s, o⟩)
      else (.ok (), ⟨{ s with ranges := s.ranges ++ [row] }, o⟩) := by
  unfold insertRange
  by_cases hexpiry : row.expiresAt ≤ row.authorizedAt
  · simp [hexpiry]
  · by_cases hid : s.ranges.any (·.id = row.id)
    · simp [hexpiry, hid]
    · simp [hexpiry, hid]

theorem nodup_folios (new : NewRange) (id : String) :
    ((new.folios id).map fun f => (f.series, f.number)).Nodup := by
  simp only [NewRange.folios, List.map_map]
  refine (List.nodup_range' 1).map fun m n hmn => ?_
  simpa using hmn

theorem exists_folios_iff {new : NewRange} {id : String} {faulty : Option Nat} :
    (∃ row ∈ new.folios id, faulty = some row.number) ↔
      (faulty.any fun n => new.first ≤ n ∧ n ≤ new.last) = true := by
  simp only [NewRange.folios, List.mem_map, List.mem_range'_1]
  cases faulty with
  | none => simp
  | some n =>
    simp only [Option.any_some, decide_eq_true_eq, Option.some.injEq]
    constructor
    · rintro ⟨_, ⟨m, hm, rfl⟩, rfl⟩
      exact ⟨hm.1, by omega⟩
    · rintro ⟨hfirst, hlast⟩
      exact ⟨_, ⟨n, ⟨hfirst, by omega⟩, rfl⟩, rfl⟩

/-- What the numbers of a new range were checked for frees them all. -/
theorem folio?_of_checkNumbers {new : NewRange} {id : String}
    (h : s.checkNumbers new = .ok ()) {row : FolioRow} (hrow : row ∈ new.folios id) :
    s.folio? row.series row.number = none := by
  obtain ⟨n, hn, rfl⟩ := List.mem_map.1 hrow
  have hn := List.mem_range'_1.1 hn
  unfold folio?
  rw [List.find?_eq_none]
  intro f hf hkey
  simp only [decide_eq_true_eq] at hkey
  have := (checkNumbers_eq_ok h).1 f hf hkey.1
  omega

theorem addRange_attempts (s : Store) (faulty : Option Nat) (id : String) (now : Instant)
    (new : NewRange) :
    Attempts (addRange faulty id now new) s do
      s.checkNumbers new
      s.checkRows faulty id new
      return ((), { s with
        ranges := s.ranges ++ [new.toRow id now], folios := s.folios ++ new.folios id }) := by
  intro o
  unfold addRange
  rw [run_read_bind]
  cases hnumbers : s.checkNumbers new with
  | error failure => exact .inr ⟨failure, s, rfl, rfl⟩
  | ok =>
  rw [run_check_ok_bind]
  have hrange : (insertRange (new.toRow id now)).run ⟨s, o⟩ =
      if new.expiresAt.toMillis ≤ new.authorizedAt.toMillis then
        (.error (.storage .expiryNotLater), ⟨s, o⟩)
      else if s.ranges.any (·.id = id) then (.error (.storage .rangeIdTaken), ⟨s, o⟩)
      else (.ok (), ⟨{ s with ranges := s.ranges ++ [new.toRow id now] }, o⟩) := run_insertRange
  unfold checkRows
  by_cases hexpiry : new.expiresAt.toMillis ≤ new.authorizedAt.toMillis
  · rw [if_pos hexpiry] at hrange ⊢
    exact .inr ⟨_, s, rfl, run_bind_of_error _ _ hrange⟩
  rw [if_neg hexpiry] at hrange ⊢
  by_cases hid : s.ranges.any (·.id = id)
  · rw [if_pos hid] at hrange ⊢
    exact .inr ⟨_, s, rfl, run_bind_of_error _ _ hrange⟩
  rw [if_neg hid] at hrange ⊢
  rw [run_bind_of_ok _ _ hrange]
  -- The row of the range is there; the folios come one by one.
  have hfolios := run_insertFolios (s := { s with ranges := s.ranges ++ [new.toRow id now] })
    (o := o) faulty (nodup_folios new id) (fun row hrow => folio?_of_checkNumbers hnumbers hrow) ?_
  · rw [exists_folios_iff] at hfolios
    rcases hfolios with ⟨hnone, hrun⟩ | ⟨hfault, t, hrun⟩
    · have hfault := mt exists_folios_iff.2 fun ⟨row, hrow, h⟩ => hnone row hrow h
      rw [if_neg hfault]
      exact .inl ⟨(), _, rfl, hrun⟩
    · rw [if_pos hfault]
      exact .inr ⟨_, t, rfl, hrun⟩
  · intro row hrow
    obtain ⟨n, -, rfl⟩ := List.mem_map.1 hrow
    simp [range?, NewRange.toRow]

/-- Left to itself, the medium that refuses the second row keeps the range and its first folio. -/
example : ∃ new t,
    (addRange (some 2) "r" Instant.epoch new).run ⟨.empty, .empty⟩ =
      (.error (.storage .full), ⟨t, .empty⟩) ∧ t.ranges.length = 1 ∧ t.folios.length = 1 :=
  ⟨⟨⟨"a", "b"⟩, 1, 3, Instant.epoch, (Instant.ofParts? 1 0).getD Instant.epoch, none, none⟩, _,
    rfl, rfl, rfl⟩

theorem register_carriesOut (s : Store) (limit : Nat) (faulty : Option Nat) (id : String)
    (now : Instant) (new : NewRange) :
    CarriesOut (register limit faulty id now new) s
      (s.settled (s.register limit faulty id now new)) := by
  unfold register Store.register
  refine .check_bind fun _ _ => .check_bind fun _ _ => .check_bind fun _ _ => fun o => ?_
  have hadd := (addRange_attempts s faulty id now new).immediate o
  cases hnumbers : s.checkNumbers new with
  | error failure =>
    rw [hnumbers] at hadd
    exact run_bind_of_error _ _ hadd
  | ok =>
  cases hrows : s.checkRows faulty id new with
  | error failure =>
    rw [hnumbers, hrows] at hadd
    exact run_bind_of_error _ _ hadd
  | ok =>
    rw [hnumbers, hrows] at hadd
    exact run_bind_of_ok _ _ hadd

/-! ## Handing out -/

theorem takeNext_attempts (s : Store) (now : Instant) (series : Series)
    (document : Option String) :
    Attempts (takeNext now series document) s (s.assign now series document) := by
  intro o
  unfold takeNext Store.assign
  simp only [run_read_bind]
  cases leastNumber (s.assignable series now.toMillis) with
  | none => exact .inr ⟨_, s, rfl, rfl⟩
  | some row =>
  simp only [run_write_bind]
  cases FolioRow.toFolio { row with state := .used now.toMillis document } with
  | error failure => exact .inr ⟨failure, _, rfl, rfl⟩
  | ok folio => exact .inl ⟨_, _, rfl, rfl⟩

theorem assign_carriesOut (d : Desk) (s : Store) (now : Instant) (series : Series)
    (document : Option String) :
    CarriesOut (assign d now series document) s (d.assign s now series document) := by
  intro o
  unfold assign Desk.assign
  simp only [run_read_bind, run_tell_bind]
  rcases takeNext_attempts s now series document (o ++ ⟨[], d.lowStock s now series⟩) with
    ⟨a, t, hassign, hrun⟩ | ⟨failure, t, hassign, hrun⟩
  · rw [hassign, run_bind_of_ok _ _ (run_immediate_of_ok _ hrun)]
    simp [Scene.leave, Outbox.append_assoc]
  · rw [hassign, run_bind_of_error _ _ (run_immediate_of_error _ hrun)]
    rfl

/-! ## Voiding and binding -/

theorem folio?_setFolio {series : Series} {number : Nat} {state : FolioState} {row : FolioRow}
    (h : s.folio? series number = some row) :
    (s.setFolio series number state).folio? series number = some { row with state := state } := by
  have hkey := (folio?_eq_some h).2
  have hsame : ∀ f : FolioRow,
      ((fun f : FolioRow => decide (f.series = series ∧ f.number = number)) ∘ fun f =>
        if f.series = series ∧ f.number = number then { f with state := state } else f) f =
      decide (f.series = series ∧ f.number = number) := by
    intro f
    rw [Function.comp_apply]
    split <;> rfl
  unfold folio? at h ⊢
  rw [setFolio, List.find?_map, funext hsame, h, Option.map_some, if_pos hkey]

theorem voidFolio_attempts (s : Store) (now : Instant) (series : Series) (number : Nat)
    (reason : String) (hreason : ¬ isBlank reason) (hnumber : checkNumber number = .ok ()) :
    Attempts (voidFolio now series number reason) s (s.void now series number reason) := by
  intro o
  unfold voidFolio Store.void
  rw [if_neg hreason, hnumber, run_read_bind]
  cases hrow : s.folio? series number with
  | none => exact .inr ⟨_, s, rfl, rfl⟩
  | some row =>
  simp only
  by_cases hav : row.isAvailable = true
  · rw [if_neg (not_not.2 hav), if_neg (not_not.2 hav), run_write_bind, run_settle_bind,
      run_read_bind]
    rw [folio?, settle_folios, ← folio?, folio?_setFolio hrow]
    simp only
    cases FolioRow.toFolio { row with state := .void now.toMillis reason } with
    | error failure => exact .inr ⟨failure, _, rfl, rfl⟩
    | ok folio => exact .inl ⟨_, _, rfl, rfl⟩
  · rw [if_pos hav, if_pos hav]
    exact .inr ⟨_, s, rfl, rfl⟩

theorem void_carriesOut (d : Desk) (s : Store) (now : Instant) (series : Series) (number : Nat)
    (reason : String) :
    CarriesOut (void d now series number reason) s (d.void s now series number reason) := by
  intro o
  unfold void Desk.void
  by_cases hreason : isBlank reason
  · simp only [Store.void, if_pos hreason]
    exact (Scene.leave_quiet ..).symm
  rw [if_neg hreason]
  cases hnumber : checkNumber number with
  | error failure =>
    simp only [Store.void, if_neg hreason, hnumber]
    exact (Scene.leave_quiet ..).symm
  | ok =>
  rw [run_check_ok_bind]
  rcases voidFolio_attempts s now series number reason hreason hnumber o with
    ⟨a, t, hvoid, hrun⟩ | ⟨failure, t, hvoid, hrun⟩
  · rw [hvoid, run_bind_of_ok _ _ (run_immediate_of_ok _ hrun)]
    rfl
  · rw [hvoid, run_bind_of_error _ _ (run_immediate_of_error _ hrun)]
    exact (Scene.leave_quiet ..).symm

theorem bindFolio_attempts (s : Store) (series : Series) (number : Nat) (document : String)
    (hnumber : checkNumber number = .ok ()) :
    Attempts (bindFolio series number document) s (s.bind series number document) := by
  intro o
  unfold bindFolio Store.bind
  rw [run_read_bind, hnumber]
  cases s.folio? series number with
  | none => exact .inr ⟨_, s, rfl, rfl⟩
  | some row =>
  simp only
  cases row.toFolio with
  | error failure => exact .inr ⟨failure, s, rfl, rfl⟩
  | ok folio =>
  obtain ⟨_, _, _, state⟩ := row
  cases state with
  | available => exact .inr ⟨_, s, rfl, rfl⟩
  | void since reason => exact .inr ⟨_, s, rfl, rfl⟩
  | used since bound =>
  cases bound with
  | none => exact .inl ⟨_, _, rfl, rfl⟩
  | some bound =>
    simp only
    by_cases hsame : bound = document
    · simp only [if_pos hsame]
      exact .inl ⟨_, _, rfl, rfl⟩
    · simp only [if_neg hsame]
      exact .inr ⟨_, s, rfl, rfl⟩

theorem bind_carriesOut (s : Store) (series : Series) (number : Nat) (document : String) :
    CarriesOut (bind series number document) s (s.settled (s.bind series number document)) := by
  intro o
  unfold bind
  cases hnumber : checkNumber number with
  | error failure =>
    simp only [Store.bind, hnumber]
    exact (Scene.leave_settled_error s o failure).symm
  | ok => exact (bindFolio_attempts s series number document hnumber).immediate o

/-! ## Requests -/

theorem recordRequest_carriesOut (s : Store) (r : ReplenishmentRequest) :
    CarriesOut (recordRequest r) s (s.settled ((s.recordRequest r).map (((), ·)))) := by
  intro o
  unfold recordRequest Store.recordRequest
  by_cases hstatus : r.status ≠ .pending
  · rw [if_pos hstatus, if_pos hstatus]
    exact (Scene.leave_quiet ..).symm
  rw [if_neg hstatus, if_neg hstatus]
  cases checkNumber r.first with
  | error failure => exact (Scene.leave_quiet ..).symm
  | ok =>
  cases checkNumber r.last with
  | error failure => exact (Scene.leave_quiet ..).symm
  | ok =>
  rw [run_check_ok_bind, run_check_ok_bind, insertRequest, run_read_bind]
  by_cases htaken : s.requests.any fun row =>
      row.trackingId = r.trackingId ∨ (row.series = r.series ∧ row.isPending)
  · simp only [if_pos htaken]
    exact (Scene.leave_quiet ..).symm
  · simp only [if_neg htaken]
    exact (Scene.leave_quiet ..).symm

theorem resolve_carriesOut (s : Store) (trackingId : String) (state : RequestState) :
    CarriesOut (resolve trackingId state) s
      (s.settled ((s.resolve trackingId state).map (((), ·)))) := by
  intro o
  unfold resolve Store.resolve
  rw [run_read_bind, run_write_bind]
  by_cases hhit : s.requests.any fun r => r.trackingId = trackingId ∧ r.isPending
  · have hcount : s.requests.countP (fun r => r.trackingId = trackingId ∧ r.isPending) ≠ 0 := by
      rw [Ne, List.countP_eq_zero]
      simpa using hhit
    rw [if_neg hcount, if_pos hhit]
    exact (Scene.leave_quiet ..).symm
  · have hcount : s.requests.countP (fun r => r.trackingId = trackingId ∧ r.isPending) = 0 := by
      rw [List.countP_eq_zero]
      simpa using hhit
    -- The update met no row.
    have hsame : (s.requests.map fun r => if r.trackingId = trackingId ∧ r.isPending then
        { r with state := state } else r) = s.requests := by
      refine (List.map_congr_left fun r hr => if_neg fun hkey => ?_).trans (List.map_id _)
      exact hhit (List.any_eq_true.2 ⟨r, hr, by simpa using hkey⟩)
    rw [if_pos hcount, if_neg hhit, hsame, run_read_bind]
    cases s.getRequest trackingId with
    | ok current => exact (Scene.leave_quiet ..).symm
    | error failure => exact (Scene.leave_quiet ..).symm

/-! ## Failures -/

/-- The session comes to what the step says, and a failure leaves the store as it was and raises no
alert. -/
structure AllOrNothing (x : Session α) (s : Store) (step : Except Failure α × Store × Outbox) :
    Prop where
  carriesOut : CarriesOut x s step
  undone : ∀ o failure σ, x.run ⟨s, o⟩ = (.error failure, σ) →
    σ.store = s ∧ σ.outbox.alerts = o.alerts

/-- It is enough to look at the step. -/
theorem CarriesOut.allOrNothing {x : Session α} {step : Except Failure α × Store × Outbox}
    (h : CarriesOut x s step)
    (hstep : ∀ failure, step.1 = .error failure → step.2.1 = s ∧ step.2.2.alerts = []) :
    AllOrNothing x s step := by
  refine ⟨h, fun o failure σ hrun => ?_⟩
  rw [h o] at hrun
  obtain ⟨hresult, rfl⟩ := Prod.mk.inj hrun
  obtain ⟨hstore, halerts⟩ := hstep failure hresult
  refine ⟨hstore, ?_⟩
  show o.alerts ++ step.2.2.alerts = o.alerts
  rw [halerts, List.append_nil]

theorem CarriesOut.allOrNothing_settled {x : Session α} {result : Except Failure (α × Store)}
    (h : CarriesOut x s (s.settled result)) : AllOrNothing x s (s.settled result) := by
  refine h.allOrNothing fun failure hresult => ?_
  cases result with
  | ok r => cases hresult
  | error failure => exact ⟨rfl, rfl⟩

end Session

open Session

theorem Desk.assign_undone {d : Desk} {s : Store} {now : Instant} {series : Series}
    {document : Option String} {failure : Failure}
    (h : (d.assign s now series document).1 = .error failure) :
    (d.assign s now series document).2.1 = s ∧
      (d.assign s now series document).2.2.alerts = [] := by
  unfold Desk.assign at h ⊢
  split at h
  · cases h
  · exact ⟨rfl, rfl⟩

theorem Desk.void_undone {d : Desk} {s : Store} {now : Instant} {series : Series} {number : Nat}
    {reason : String} {failure : Failure}
    (h : (d.void s now series number reason).1 = .error failure) :
    (d.void s now series number reason).2.1 = s ∧
      (d.void s now series number reason).2.2.alerts = [] := by
  unfold Desk.void at h ⊢
  split at h
  · cases h
  · exact ⟨rfl, rfl⟩

/-! ## Triggers -/

/-- At most locks differ. -/
structure Store.SameTables (s t : Store) : Prop extends SameLedger s t where
  requests : t.requests = s.requests

namespace Store.SameTables

variable {s t u : Store}

@[refl] theorem refl (s : Store) : SameTables s s := ⟨.refl s, rfl⟩

theorem trans (h : SameTables s t) (h' : SameTables t u) : SameTables s u :=
  ⟨h.toSameLedger.trans h'.toSameLedger, h'.requests.trans h.requests⟩

theorem acquire (s : Store) (now : Instant) (ttl : Nat) (token key : String) :
    SameTables s (s.acquire now ttl token key).2 :=
  ⟨s.acquire_sameLedger now ttl token key, s.acquire_requests now ttl token key⟩

theorem release (s : Store) (lease : Lease) : SameTables s (s.release lease) :=
  ⟨s.release_sameLedger lease, rfl⟩

end Store.SameTables

/-- Up to the submission of a request a trigger touches locks only, whatever comes of it. -/
theorem Monitor.prepare_sameTables (m : Monitor) (s : Store) (now later : Instant)
    (token : String) (series : Series) (threshold : Nat) :
    SameTables s (m.prepare s now later token series threshold).2 := by
  have hlock := SameTables.acquire s now m.lockTtl token (Lock.replenishment series)
  refine prepare_store hlock fun lease t h => ?_
  rw [h] at hlock
  exact hlock.trans (.release t lease)

theorem Monitor.record_sameTables {s : Store} {draft : Draft} {answer : Except Failure String}
    {failure : Failure} (h : (Monitor.record s draft answer).1 = .error failure) :
    SameTables s (Monitor.record s draft answer).2 := by
  unfold Monitor.record at h ⊢
  split at h
  · exact .release s draft.lease
  · simp only at h ⊢
    split at h
    · cases h
    · exact .release s draft.lease

theorem Workshop.trigger_sameTables {m : Type → Type} [Monad m] [LawfulMonad m] (world : World m)
    (w : Workshop) (s : Store) (series : Series) (threshold : Nat) :
    Always (fun out => ∀ failure, out.1 = .error failure → SameTables s out.2)
      (w.trigger world s series threshold) := by
  unfold trigger
  refine .any_bind fun now => .any_bind fun later => .any_bind fun token => ?_
  have hprepare := w.monitor.prepare_sameTables s now later token series threshold
  split
  · next h =>
    rw [h] at hprepare
    exact .pure fun _ _ => hprepare
  · next draft t h =>
    rw [h] at hprepare
    refine .any_bind fun answer => .pure fun failure hfail => ?_
    exact hprepare.trans (Monitor.record_sameTables hfail)

/-! ## All or nothing -/

/-- On any store, each operation is carried out or, if it fails, leaves the tables of ranges, folios
and requests as they were and raises no alert.  A fault of the medium at any row of a range and
times that the tables refuse are failures like all others.  A trigger raises no alert in any case,
and whoever acts while its request is submitted, neither half of it touches the tables when it
fails. -/
theorem failed_operation_leaves_no_trace (s : Store) :
    (∀ limit faulty id now new, AllOrNothing (register limit faulty id now new) s
      (s.settled (s.register limit faulty id now new))) ∧
    (∀ d now series document, AllOrNothing (assign d now series document) s
      (d.assign s now series document)) ∧
    (∀ d now series number reason, AllOrNothing (void d now series number reason) s
      (d.void s now series number reason)) ∧
    (∀ series number document, AllOrNothing (bind series number document) s
      (s.settled (s.bind series number document))) ∧
    (∀ r, AllOrNothing (recordRequest r) s (s.settled ((s.recordRequest r).map (((), ·))))) ∧
    (∀ trackingId rangeId now,
      AllOrNothing (resolve trackingId (.accepted rangeId (Instant.toMillis now))) s
        (s.settled ((s.markAccepted trackingId rangeId now).map (((), ·))))) ∧
    (∀ trackingId reason now,
      AllOrNothing (resolve trackingId (.rejected reason (Instant.toMillis now))) s
        (s.settled ((s.markRejected trackingId reason now).map (((), ·))))) ∧
    (∀ trackingId now,
      AllOrNothing (resolve trackingId (.timedOut (Instant.toMillis now))) s
        (s.settled ((s.markTimedOut trackingId now).map (((), ·))))) ∧
    (∀ (monitor : Monitor) now later token series threshold,
      SameTables s (monitor.prepare s now later token series threshold).2) ∧
    (∀ draft answer failure, (Monitor.record s draft answer).1 = .error failure →
      SameTables s (Monitor.record s draft answer).2) ∧
    ∀ (m : Type → Type) [Monad m] [LawfulMonad m] (world : World m) (w : Workshop) series threshold,
      Always (fun out => ∀ failure, out.1 = .error failure → SameTables s out.2)
        (w.trigger world s series threshold) := by
  refine ⟨?_, ?_, ?_, ?_, ?_, ?_, ?_, ?_, ?_, ?_, ?_⟩
  · intro limit faulty id now new
    exact (register_carriesOut s limit faulty id now new).allOrNothing_settled
  · intro d now series document
    exact (assign_carriesOut d s now series document).allOrNothing fun _ => Desk.assign_undone
  · intro d now series number reason
    exact (void_carriesOut d s now series number reason).allOrNothing fun _ => Desk.void_undone
  · intro series number document
    exact (bind_carriesOut s series number document).allOrNothing_settled
  · intro r
    exact (recordRequest_carriesOut s r).allOrNothing_settled
  · intro trackingId rangeId now
    exact (resolve_carriesOut s trackingId _).allOrNothing_settled
  · intro trackingId reason now
    exact (resolve_carriesOut s trackingId _).allOrNothing_settled
  · intro trackingId now
    exact (resolve_carriesOut s trackingId _).allOrNothing_settled
  · intro monitor now later token series threshold
    exact monitor.prepare_sameTables s now later token series threshold
  · intro draft answer failure h
    exact Monitor.record_sameTables h
  · intro m _ _ world w series threshold
    exact w.trigger_sameTables world s series threshold

end FolioLedger
