import FolioLedger.Proofs.Ledger.Integrity
import FolioLedger.Proofs.Replenish.Archive

/-!
# Columns

The store keeps what became of a folio or a request as one value.  Its tables have a column for each
part of that value, and a column may be empty.  `FolioColumns` and `RequestColumns` are rows of these
tables, and a `Statement` is what writes to them: it sets some columns of the rows that meet its
condition.  `Tables.execute` carries a statement out on whatever the tables hold.

A row of the store is a row of a table whose columns fit its status (`FolioColumns.fit_iff_exists`,
`RequestColumns.fit_iff_exists`).  That columns fit is due to the conditions of the statements: none
spoils tables that fit (`Tables.Fit.execute`), whereas without its condition `takeNext` would leave a
used folio with the time at which it was voided.  What an operation does to the store its statements
do to the tables: one lemma `ledgerWith_…` says so for each way in which the ledger changes, and two
for requests.  So after a run the tables hold what statements have written since they were empty, and
the columns fit (`Store.run_columns`).

A statement is one that went through: constraints are checked in a `Session`.  A row that a query
selects is named by its key.  Locks have no column that may be empty, and when a status changed is
not kept, for nothing reads it.
-/

namespace FolioLedger

open Relation

/-! ## Rows -/

/-- A row of the table of folios. -/
structure FolioColumns where
  series : Series
  number : Nat
  rangeId : String
  status : FolioStatus
  usedAt : Option Millis
  documentId : Option String
  voidedAt : Option Millis
  voidReason : Option String
deriving DecidableEq

/-- A row of the table of requests. -/
structure RequestColumns where
  trackingId : String
  series : Series
  first : Nat
  last : Nat
  status : RequestStatus
  reason : Option String
  rangeId : Option String
  requestedAt : Millis
  resolvedAt : Option Millis
deriving DecidableEq

/-- The tables that record what was authorized, issued and requested. -/
structure Tables where
  ranges : List RangeRow := []
  folios : List FolioColumns := []
  requests : List RequestColumns := []
deriving DecidableEq

def FolioRow.columns (f : FolioRow) : FolioColumns where
  series := f.series
  number := f.number
  rangeId := f.rangeId
  status := f.state.status
  usedAt := f.state.usedAt
  documentId := f.state.document
  voidedAt := f.state.voidedAt
  voidReason := f.state.voidReason

def RequestRow.columns (r : RequestRow) : RequestColumns where
  trackingId := r.trackingId
  series := r.series
  first := r.first
  last := r.last
  status := r.state.status
  reason := r.state.reason
  rangeId := r.state.rangeId
  requestedAt := r.requestedAt
  resolvedAt := r.state.resolvedAt

/-- The tables of a store. -/
def Store.columns (s : Store) : Tables :=
  ⟨s.ranges, s.folios.map FolioRow.columns, s.requests.map RequestRow.columns⟩

namespace FolioColumns

/-- The document of a row, column by column. -/
def toFolio (c : FolioColumns) : Except Failure Folio := do
  return {
    series := c.series
    number := c.number
    rangeId := c.rangeId
    status := c.status
    usedAt := ← c.usedAt.mapM Instant.ofMillis
    documentId := c.documentId
    voidedAt := ← c.voidedAt.mapM Instant.ofMillis
    voidReason := c.voidReason }

/-- The columns fit the status. -/
def Fit (c : FolioColumns) : Prop :=
  Folio.Consistent c.status c.usedAt c.documentId c.voidedAt c.voidReason

theorem Fit.usedAt_eq_none {c : FolioColumns} (h : c.Fit) (hst : c.status ≠ .used) :
    c.usedAt = none ∧ c.documentId = none := by
  refine ⟨?_, ?_⟩
  · simpa [hst] using h.usedAt_iff
  · simpa [hst] using h.document_imp

theorem Fit.voidedAt_eq_none {c : FolioColumns} (h : c.Fit) (hst : c.status ≠ .void) :
    c.voidedAt = none ∧ c.voidReason = none := by
  refine ⟨?_, ?_⟩
  · simpa [hst] using h.voidedAt_iff
  · simpa [hst] using h.voidReason_iff

/-- The rows of a store are the rows that fit. -/
theorem fit_iff_exists {c : FolioColumns} : c.Fit ↔ ∃ f : FolioRow, f.columns = c := by
  constructor
  · intro h
    obtain ⟨series, number, rangeId, status, usedAt, documentId, voidedAt, voidReason⟩ := c
    cases status with
    | available =>
      obtain ⟨rfl, rfl⟩ := h.usedAt_eq_none nofun
      obtain ⟨rfl, rfl⟩ := h.voidedAt_eq_none nofun
      exact ⟨⟨series, number, rangeId, .available⟩, rfl⟩
    | used =>
      obtain ⟨since, rfl⟩ := Option.isSome_iff_exists.1 (h.usedAt_iff.2 rfl)
      obtain ⟨rfl, rfl⟩ := h.voidedAt_eq_none nofun
      exact ⟨⟨series, number, rangeId, .used since documentId⟩, rfl⟩
    | void =>
      obtain ⟨rfl, rfl⟩ := h.usedAt_eq_none nofun
      obtain ⟨since, rfl⟩ := Option.isSome_iff_exists.1 (h.voidedAt_iff.2 rfl)
      obtain ⟨reason, rfl⟩ := Option.isSome_iff_exists.1 (h.voidReason_iff.2 rfl)
      exact ⟨⟨series, number, rangeId, .void since reason⟩, rfl⟩
  · rintro ⟨f, rfl⟩
    exact f.state.consistent

end FolioColumns

namespace RequestColumns

/-- The document of a row, column by column. -/
def toRequest (c : RequestColumns) : Except Failure ReplenishmentRequest := do
  return {
    trackingId := c.trackingId
    series := c.series
    first := c.first
    last := c.last
    status := c.status
    reason := c.reason
    rangeId := c.rangeId
    requestedAt := ← Instant.ofMillis c.requestedAt
    resolvedAt := ← c.resolvedAt.mapM Instant.ofMillis }

/-- The columns fit the status. -/
def Fit (c : RequestColumns) : Prop := c.status.Fills c.reason c.rangeId c.resolvedAt

theorem Fit.rangeId_eq_none {c : RequestColumns} (h : c.Fit) (hst : c.status ≠ .accepted) :
    c.rangeId = none := by
  simpa [hst] using h.rangeId

theorem Fit.reason_eq_none {c : RequestColumns} (h : c.Fit) (hst : c.status ≠ .rejected) :
    c.reason = none := by
  simpa [hst] using h.reason

/-- The rows of a store are the rows that fit. -/
theorem fit_iff_exists {c : RequestColumns} : c.Fit ↔ ∃ r : RequestRow, r.columns = c := by
  constructor
  · intro h
    obtain ⟨trackingId, series, first, last, status, reason, rangeId, requestedAt, resolvedAt⟩ := c
    cases status with
    | pending =>
      obtain rfl : resolvedAt = none := by simpa using h.resolvedAt
      obtain rfl := h.rangeId_eq_none nofun
      obtain rfl := h.reason_eq_none nofun
      exact ⟨⟨trackingId, series, first, last, requestedAt, .pending⟩, rfl⟩
    | accepted =>
      obtain ⟨since, rfl⟩ := Option.isSome_iff_exists.1 (h.resolvedAt.2 nofun)
      obtain ⟨id, rfl⟩ := Option.isSome_iff_exists.1 (h.rangeId.2 rfl)
      obtain rfl := h.reason_eq_none nofun
      exact ⟨⟨trackingId, series, first, last, requestedAt, .accepted id since⟩, rfl⟩
    | rejected =>
      obtain ⟨since, rfl⟩ := Option.isSome_iff_exists.1 (h.resolvedAt.2 nofun)
      obtain rfl := h.rangeId_eq_none nofun
      obtain ⟨why, rfl⟩ := Option.isSome_iff_exists.1 (h.reason.2 rfl)
      exact ⟨⟨trackingId, series, first, last, requestedAt, .rejected why since⟩, rfl⟩
    | timedOut =>
      obtain ⟨since, rfl⟩ := Option.isSome_iff_exists.1 (h.resolvedAt.2 nofun)
      obtain rfl := h.rangeId_eq_none nofun
      obtain rfl := h.reason_eq_none nofun
      exact ⟨⟨trackingId, series, first, last, requestedAt, .timedOut since⟩, rfl⟩
  · rintro ⟨r, rfl⟩
    exact r.state.fills

end RequestColumns

/-- In a state that is known the columns can be read off. -/
theorem FolioRow.columns_of_state {f : FolioRow} {st : FolioState} (h : f.state = st) :
    f.columns = FolioRow.columns { f with state := st } := by
  rw [← h]

/-- A row of a store is told by its columns. -/
theorem FolioRow.columns_injective : Function.Injective FolioRow.columns := by
  rintro ⟨_, _, _, st⟩ ⟨_, _, _, st'⟩ h
  cases st <;> cases st' <;>
    simp_all [columns, FolioState.status, FolioState.usedAt, FolioState.document,
      FolioState.voidedAt, FolioState.voidReason]

theorem RequestRow.columns_injective : Function.Injective RequestRow.columns := by
  rintro ⟨_, _, _, _, _, st⟩ ⟨_, _, _, _, _, st'⟩ h
  cases st <;> cases st' <;>
    simp_all [columns, RequestState.status, RequestState.reason, RequestState.rangeId,
      RequestState.resolvedAt]

/-- A row is read back from its columns. -/
theorem FolioRow.toFolio_columns (f : FolioRow) : f.columns.toFolio = f.toFolio := rfl

theorem RequestRow.toRequest_columns (r : RequestRow) : r.columns.toRequest = r.toRequest := rfl

theorem RequestState.status_eq_pending {st : RequestState} :
    st.status = .pending ↔ st = .pending := by
  cases st <;> simp [RequestState.status]

/-! ## Statements -/

/-- What writes to the tables. -/
inductive Statement where
  | insertRange (row : RangeRow)
  | insertFolio (series : Series) (number : Nat) (rangeId : String)
  | takeNext (series : Series) (now : Millis) (document : Option String)
  | voidFolio (series : Series) (number : Nat) (now : Millis) (reason : String)
  | bindDocument (series : Series) (number : Nat) (document : String)
  | markExhausted (rangeId : String)
  | expireRanges (now : Millis)
  | markNearExpiry (rangeId : String) (now : Millis)
  | insertPending (trackingId : String) (series : Series) (first last : Nat) (requestedAt : Millis)
  | markAccepted (trackingId rangeId : String) (now : Millis)
  | markRejected (trackingId reason : String) (now : Millis)
  | markTimedOut (trackingId : String) (now : Millis)

namespace Tables

/-- Sets columns of the ranges that meet a condition. -/
def updateRanges (t : Tables) (condition : RangeRow → Bool) (set : RangeRow → RangeRow) : Tables :=
  { t with ranges := t.ranges.map fun r => if condition r then set r else r }

/-- Sets columns of the folios that meet a condition. -/
def updateFolios (t : Tables) (condition : FolioColumns → Bool)
    (set : FolioColumns → FolioColumns) : Tables :=
  { t with folios := t.folios.map fun f => if condition f then set f else f }

/-- Resolves the pending request with a tracking id. -/
def resolve (t : Tables) (trackingId : String) (status : RequestStatus)
    (reason rangeId : Option String) (now : Millis) : Tables :=
  { t with requests := t.requests.map fun r =>
      if r.trackingId = trackingId ∧ r.status = .pending then
        { r with status := status, reason := reason, rangeId := rangeId, resolvedAt := some now }
      else r }

/-- The least number of a series that is available, in an active range that has not expired. -/
def next? (t : Tables) (series : Series) (now : Millis) : Option Nat :=
  ((t.folios.filter fun f => f.series = series ∧ f.status = .available ∧
    t.ranges.any fun r => r.id = f.rangeId ∧ r.status = .active ∧ now < r.expiresAt).map
      (·.number)).min?

/-- Whether a range holds available folios. -/
def hasStock (t : Tables) (rangeId : String) : Bool :=
  t.folios.any fun f => f.rangeId = rangeId ∧ f.status = .available

/-- Carries a statement out.  It does nothing if no row meets its condition. -/
def execute (t : Tables) : Statement → Tables
  | .insertRange row => { t with ranges := t.ranges ++ [row] }
  | .insertFolio series number rangeId =>
    { t with folios := t.folios ++
        [⟨series, number, rangeId, .available, none, none, none, none⟩] }
  | .takeNext series now document =>
    t.updateFolios
      (fun f => f.series = series ∧ t.next? series now = some f.number ∧ f.status = .available)
      fun f => { f with status := .used, usedAt := some now, documentId := document }
  | .voidFolio series number now reason =>
    t.updateFolios
      (fun f => f.series = series ∧ f.number = number ∧ f.status = .available)
      fun f => { f with status := .void, voidedAt := some now, voidReason := some reason }
  | .bindDocument series number document =>
    t.updateFolios
      (fun f => f.series = series ∧ f.number = number ∧ f.status = .used ∧ f.documentId = none)
      fun f => { f with documentId := some document }
  | .markExhausted rangeId =>
    t.updateRanges
      (fun r => r.id = rangeId ∧ r.status = .active ∧ t.hasStock rangeId = false)
      fun r => { r with status := .exhausted }
  | .expireRanges now =>
    t.updateRanges
      (fun r => r.status = .active ∧ r.expiresAt ≤ now)
      fun r => { r with status := .expired }
  | .markNearExpiry rangeId now =>
    t.updateRanges
      (fun r => r.id = rangeId ∧ r.status = .active ∧ r.nearExpiryAlertedAt = none)
      fun r => { r with nearExpiryAlertedAt := some now }
  | .insertPending trackingId series first last requestedAt =>
    { t with requests := t.requests ++
        [⟨trackingId, series, first, last, .pending, none, none, requestedAt, none⟩] }
  | .markAccepted trackingId rangeId now => t.resolve trackingId .accepted none (some rangeId) now
  | .markRejected trackingId reason now => t.resolve trackingId .rejected (some reason) none now
  | .markTimedOut trackingId now => t.resolve trackingId .timedOut none none now

/-- The tables after some statements. -/
def executeAll (t : Tables) (log : List Statement) : Tables :=
  log.foldl execute t

theorem executeAll_cons (t : Tables) (statement : Statement) (log : List Statement) :
    t.executeAll (statement :: log) = (t.execute statement).executeAll log := rfl

theorem executeAll_append (t : Tables) (log log' : List Statement) :
    t.executeAll (log ++ log') = (t.executeAll log).executeAll log' :=
  List.foldl_append

theorem executeAll_insertFolio (t : Tables) (series : Series) (rangeId : String)
    (numbers : List Nat) : t.executeAll (numbers.map (.insertFolio series · rangeId)) =
      { t with folios := t.folios ++ numbers.map fun n =>
          ⟨series, n, rangeId, .available, none, none, none, none⟩ } := by
  induction numbers generalizing t with
  | nil => simp [executeAll]
  | cons n numbers ih =>
    rw [List.map_cons, executeAll_cons, ih]
    simp [execute]

/-! ## Statements keep columns fitting -/

/-- The columns of each row fit its status. -/
structure Fit (t : Tables) : Prop where
  folios : ∀ f ∈ t.folios, f.Fit
  requests : ∀ r ∈ t.requests, r.Fit

namespace Fit

variable {t : Tables}

theorem empty : Fit {} := ⟨by simp, by simp⟩

theorem updateRanges (h : t.Fit) (condition : RangeRow → Bool) (set : RangeRow → RangeRow) :
    (t.updateRanges condition set).Fit :=
  ⟨h.folios, h.requests⟩

/-- Only rows that meet the condition are set. -/
theorem updateFolios (h : t.Fit) {condition : FolioColumns → Bool}
    {set : FolioColumns → FolioColumns}
    (hset : ∀ f, condition f → f.Fit → (set f).Fit) : (t.updateFolios condition set).Fit := by
  refine ⟨fun f' hf' => ?_, h.requests⟩
  obtain ⟨f, hf, rfl⟩ := List.mem_map.1 hf'
  split
  · next hmeets => exact hset f hmeets (h.folios f hf)
  · exact h.folios f hf

/-- All columns that depend on the status are set, so it does not matter what they held. -/
theorem resolve (h : t.Fit) (trackingId : String) {status : RequestStatus}
    {reason rangeId : Option String} {now : Millis} (hfills : status.Fills reason rangeId (some now)) :
    (t.resolve trackingId status reason rangeId now).Fit := by
  refine ⟨h.folios, fun r' hr' => ?_⟩
  obtain ⟨r, hr, rfl⟩ := List.mem_map.1 hr'
  split
  · exact hfills
  · exact h.requests r hr

/-- No statement spoils tables whose columns fit. -/
theorem execute (h : t.Fit) (statement : Statement) : (t.execute statement).Fit := by
  cases statement with
  | insertRange => exact ⟨h.folios, h.requests⟩
  | insertFolio series number rangeId =>
    refine ⟨fun f hf => ?_, h.requests⟩
    rcases List.mem_append.1 hf with hold | hnew
    · exact h.folios f hold
    · obtain rfl := List.mem_singleton.1 hnew
      exact FolioState.consistent .available
  | takeNext series now document =>
    refine h.updateFolios fun f hmeets hfit => ?_
    simp only [decide_eq_true_eq] at hmeets
    -- An available folio has no columns of a void one.
    obtain ⟨hvoidedAt, hvoidReason⟩ := hfit.voidedAt_eq_none (by simp [hmeets.2.2])
    simp only [FolioColumns.Fit, hvoidedAt, hvoidReason]
    exact FolioState.consistent (.used now document)
  | voidFolio series number now reason =>
    refine h.updateFolios fun f hmeets hfit => ?_
    simp only [decide_eq_true_eq] at hmeets
    obtain ⟨husedAt, hdocument⟩ := hfit.usedAt_eq_none (by simp [hmeets.2.2])
    simp only [FolioColumns.Fit, husedAt, hdocument]
    exact FolioState.consistent (.void now reason)
  | bindDocument series number document =>
    refine h.updateFolios fun f hmeets hfit => ?_
    simp only [decide_eq_true_eq] at hmeets
    exact { hfit with document_imp := fun _ => hmeets.2.2.1 }
  | markExhausted => exact h.updateRanges _ _
  | expireRanges => exact h.updateRanges _ _
  | markNearExpiry => exact h.updateRanges _ _
  | insertPending =>
    refine ⟨h.folios, fun r hr => ?_⟩
    rcases List.mem_append.1 hr with hold | hnew
    · exact h.requests r hold
    · obtain rfl := List.mem_singleton.1 hnew
      exact RequestState.fills .pending
  | markAccepted trackingId rangeId now =>
    exact h.resolve trackingId (RequestState.fills (.accepted rangeId now))
  | markRejected trackingId reason now =>
    exact h.resolve trackingId (RequestState.fills (.rejected reason now))
  | markTimedOut trackingId now =>
    exact h.resolve trackingId (RequestState.fills (.timedOut now))

theorem executeAll (h : t.Fit) (log : List Statement) : (t.executeAll log).Fit := by
  induction log generalizing t with
  | nil => exact h
  | cons statement log ih => exact ih (h.execute statement)

end Fit

end Tables

/-! ## What an operation writes -/

/-- A range is inserted, and then a folio for each of its numbers. -/
def NewRange.log (new : NewRange) (id : String) (now : Instant) : List Statement :=
  .insertRange (new.toRow id now) ::
    (List.range' new.first (new.last + 1 - new.first)).map (.insertFolio new.series · id)

namespace Store

variable {s t : Store}

/-- The ranges and folios of a store, with some requests. -/
def ledgerWith (s : Store) (requests : List RequestColumns) : Tables :=
  ⟨s.ranges, s.folios.map FolioRow.columns, requests⟩

theorem columns_eq (s : Store) : s.columns = s.ledgerWith (s.requests.map RequestRow.columns) := rfl

section

variable (requests : List RequestColumns)

/-- A range is settled as it is marked. -/
theorem ledgerWith_settle (s : Store) (id : String) :
    (s.settle id).ledgerWith requests = (s.ledgerWith requests).execute (.markExhausted id) := by
  have hstock : (s.ledgerWith requests).hasStock id = s.hasStock id := by
    rw [Bool.eq_iff_iff, hasStock_iff]
    simp only [Tables.hasStock, ledgerWith, List.any_map, List.any_eq_true, Function.comp_apply,
      decide_eq_true_eq]
    simp only [FolioRow.columns, FolioState.status_eq_available]
  rw [settle_eq]
  simp only [Tables.execute, hstock]
  rfl

/-- A statement that names a row by its key changes that row alone. -/
theorem Aligned.ledgerWith_setFolio (h : Aligned s) {row : FolioRow} (hrow : row ∈ s.folios)
    {st : FolioState} {condition : FolioColumns → Bool} {set : FolioColumns → FolioColumns}
    (hkey : ∀ c, condition c → c.series = row.series ∧ c.number = row.number)
    (hmeets : condition row.columns = true)
    (hset : set row.columns = FolioRow.columns { row with state := st }) :
    (s.setFolio row.series row.number st).ledgerWith requests =
      (s.ledgerWith requests).updateFolios condition set := by
  have hfolios : (s.setFolio row.series row.number st).folios.map FolioRow.columns =
      (s.folios.map FolioRow.columns).map fun c => if condition c then set c else c := by
    rw [Store.setFolio, List.map_map, List.map_map]
    refine List.map_congr_left fun f hf => ?_
    simp only [Function.comp_apply]
    by_cases hnamed : f.series = row.series ∧ f.number = row.number
    · obtain rfl := h.eq_of_number hf hrow hnamed.1 hnamed.2
      rw [if_pos hnamed, if_pos hmeets, hset]
    · rw [if_neg hnamed, if_neg fun hc => hnamed (hkey _ hc)]
  exact congrArg (Tables.mk s.ranges · requests) hfolios

theorem next?_ledgerWith (s : Store) (series : Series) (now : Millis) :
    (s.ledgerWith requests).next? series now = ((s.assignable series now).map (·.number)).min? := by
  unfold Tables.next? assignable foliosOf
  rw [ledgerWith, List.filter_map, List.map_map, List.filter_filter]
  congr 2
  refine List.filter_congr fun f _ => ?_
  rw [Bool.eq_iff_iff]
  simp only [Function.comp_apply, Bool.and_eq_true, decide_eq_true_eq, FolioRow.isAvailable_iff]
  simp only [FolioRow.columns, FolioState.status_eq_available, isLive, and_comm]
  exact Iff.rfl

theorem HandsOut.ledgerWith (hal : Aligned s) {out : Handout} {document : Option String}
    {row : FolioRow} (h : s.HandsOut out document row t) :
    t.ledgerWith requests = (s.ledgerWith requests).executeAll
      [.takeNext row.series out.clock.toMillis document, .markExhausted row.rangeId] := by
  obtain ⟨hmem, -, hav, -⟩ := mem_assignable.1 h.mem
  have hnext : (s.ledgerWith requests).next? row.series out.clock.toMillis = some row.number := by
    rw [next?_ledgerWith, List.min?_eq_some_iff]
    refine ⟨List.mem_map_of_mem h.mem, fun n hn => ?_⟩
    obtain ⟨f, hf, rfl⟩ := List.mem_map.1 hn
    exact h.least f hf
  have htake : (s.setFolio row.series row.number (.used out.clock.toMillis document)).ledgerWith
      requests = (s.ledgerWith requests).execute
        (.takeNext row.series out.clock.toMillis document) := by
    refine hal.ledgerWith_setFolio requests hmem (fun c hc => ?_) ?_ ?_
    · simp only [decide_eq_true_eq, hnext, Option.some.injEq] at hc
      exact ⟨hc.1, hc.2.1.symm⟩
    · rw [FolioRow.columns_of_state hav]
      exact decide_eq_true ⟨rfl, hnext, rfl⟩
    · rw [FolioRow.columns_of_state hav]
      rfl
  rw [h.result, ledgerWith_settle, htake]
  rfl

theorem Aligned.ledgerWith_void (hal : Aligned s) {row : FolioRow} (hrow : row ∈ s.folios)
    (hav : row.state = .available) (since : Millis) (reason : String) :
    ((s.setFolio row.series row.number (.void since reason)).settle row.rangeId).ledgerWith
      requests = (s.ledgerWith requests).executeAll
        [.voidFolio row.series row.number since reason, .markExhausted row.rangeId] := by
  have hvoid : (s.setFolio row.series row.number (.void since reason)).ledgerWith requests =
      (s.ledgerWith requests).execute (.voidFolio row.series row.number since reason) := by
    refine hal.ledgerWith_setFolio requests hrow (fun c hc => ?_) ?_ ?_
    · simp only [decide_eq_true_eq] at hc
      exact ⟨hc.1, hc.2.1⟩
    · rw [FolioRow.columns_of_state hav]
      exact decide_eq_true ⟨rfl, rfl, rfl⟩
    · rw [FolioRow.columns_of_state hav]
      rfl
  rw [ledgerWith_settle, hvoid]
  rfl

theorem Aligned.ledgerWith_bind (hal : Aligned s) {row : FolioRow} (hrow : row ∈ s.folios)
    {since : Millis} (hunbound : row.state = .used since none) (document : String) :
    (s.setFolio row.series row.number (.used since (some document))).ledgerWith requests =
      (s.ledgerWith requests).execute (.bindDocument row.series row.number document) := by
  refine hal.ledgerWith_setFolio requests hrow (fun c hc => ?_) ?_ ?_
  · simp only [decide_eq_true_eq] at hc
    exact ⟨hc.1, hc.2.1⟩
  · rw [FolioRow.columns_of_state hunbound]
    exact decide_eq_true ⟨rfl, rfl, rfl, rfl⟩
  · rw [FolioRow.columns_of_state hunbound]
    rfl

theorem ledgerWith_register (s : Store) (id : String) (new : NewRange) (now : Instant) :
    ledgerWith { s with ranges := s.ranges ++ [new.toRow id now], folios := s.folios ++ new.folios id }
      requests = (s.ledgerWith requests).executeAll (new.log id now) := by
  rw [NewRange.log, Tables.executeAll_cons, Tables.executeAll_insertFolio, ledgerWith,
    List.map_append, NewRange.folios, List.map_map]
  rfl

theorem ledgerWith_expire (s : Store) (now : Millis) :
    (s.setStatus (isDue · now) .expired).ledgerWith requests =
      (s.ledgerWith requests).execute (.expireRanges now) := by
  simp [ledgerWith, setStatus, isDue, Tables.execute, Tables.updateRanges]

theorem ledgerWith_markNearExpiry (s : Store) (id : String) (now : Instant) :
    (s.markNearExpiry id now).2.ledgerWith requests =
      (s.ledgerWith requests).execute (.markNearExpiry id now.toMillis) := by
  simp [ledgerWith, markNearExpiry, isUnwarned, Tables.execute, Tables.updateRanges, and_assoc]

end

/-- An edit of the ledger is a few statements. -/
theorem Coherent.exists_log (h : Coherent s) (hedit : Edit s t) :
    ∃ log, ∀ requests, t.ledgerWith requests = (s.ledgerWith requests).executeAll log := by
  cases hedit with
  | aside hsame =>
    refine ⟨[], fun requests => ?_⟩
    simp only [ledgerWith, hsame.ranges, hsame.folios]
    rfl
  | register now => exact ⟨_, fun requests => s.ledgerWith_register requests _ _ now⟩
  | void since reason hrow hav =>
    exact ⟨_, fun requests => h.toAligned.ledgerWith_void requests hrow hav since reason⟩
  | @bind row since document hrow hunbound =>
    exact ⟨[.bindDocument row.series row.number document],
      fun requests => h.toAligned.ledgerWith_bind requests hrow hunbound document⟩
  | expire now => exact ⟨[.expireRanges now], fun requests => s.ledgerWith_expire requests now⟩
  | warn id now =>
    exact ⟨[.markNearExpiry id now.toMillis],
      fun requests => s.ledgerWith_markNearExpiry requests id now⟩

theorem Coherent.exists_log_of_edits (h : Coherent s) (hedits : ReflTransGen Edit s t) :
    ∃ log, ∀ requests, t.ledgerWith requests = (s.ledgerWith requests).executeAll log := by
  induction hedits with
  | refl => exact ⟨[], fun _ => rfl⟩
  | tail hedits hedit ih =>
    obtain ⟨log, hlog⟩ := ih
    obtain ⟨log', hlog'⟩ := (h.edits hedits).exists_log hedit
    exact ⟨log ++ log', fun requests => by rw [hlog', hlog, Tables.executeAll_append]⟩

/-! ## What is written of requests -/

theorem ledgerWith_recordRequest (u : Store) {r : ReplenishmentRequest}
    (h : s.recordRequest r = .ok t) : u.ledgerWith (t.requests.map RequestRow.columns) =
      (u.ledgerWith (s.requests.map RequestRow.columns)).execute
        (.insertPending r.trackingId r.series r.first r.last r.requestedAt.toMillis) := by
  obtain ⟨-, rfl⟩ := recordRequest_eq_ok_iff.1 h
  rw [List.map_append]
  rfl

theorem ledgerWith_resolve (u : Store) {trackingId : String} {state : RequestState} {now : Millis}
    (hnow : state.resolvedAt = some now) (h : s.resolve trackingId state = .ok t) :
    u.ledgerWith (t.requests.map RequestRow.columns) =
      (u.ledgerWith (s.requests.map RequestRow.columns)).resolve trackingId state.status
        state.reason state.rangeId now := by
  rw [resolve_eq_ok h]
  unfold Tables.resolve ledgerWith resolveRows
  rw [List.map_map, List.map_map]
  congr 1
  refine List.map_congr_left fun r _ => ?_
  have hcondition : (r.columns.trackingId = trackingId ∧ r.columns.status = .pending) ↔
      r.trackingId = trackingId ∧ r.isPending = true := by
    rw [RequestRow.isPending, beq_iff_eq, ← RequestState.status_eq_pending]
    rfl
  simp only [Function.comp_apply, hcondition]
  split
  · rw [← hnow]
    rfl
  · rfl

/-- A resolution is one of the three that the record of requests offers. -/
theorem exists_statement_of_resolve (u : Store) {trackingId : String} {state : RequestState}
    (hfinal : state ≠ .pending) (h : s.resolve trackingId state = .ok t) :
    ∃ statement, u.ledgerWith (t.requests.map RequestRow.columns) =
      (u.ledgerWith (s.requests.map RequestRow.columns)).execute statement := by
  cases state with
  | pending => exact absurd rfl hfinal
  | accepted rangeId now => exact ⟨.markAccepted trackingId rangeId now, ledgerWith_resolve u rfl h⟩
  | rejected reason now => exact ⟨.markRejected trackingId reason now, ledgerWith_resolve u rfl h⟩
  | timedOut now => exact ⟨.markTimedOut trackingId now, ledgerWith_resolve u rfl h⟩

end Store

open Store

/-- What an event does to the tables is what a few statements do. -/
theorem Event.exists_log {s : Store} (h : Coherent s) (e : Event) :
    ∃ log, (s.after e).columns = s.columns.executeAll log := by
  have hledger : ∃ log, ∀ requests,
      (s.after e).ledgerWith requests = (s.ledgerWith requests).executeAll log := by
    rcases e.handsOut_or_edits s with ⟨out, document, row, -, -, hout⟩ | ⟨-, hedits⟩
    · exact ⟨_, fun requests => hout.ledgerWith requests h.toAligned⟩
    · exact h.exists_log_of_edits hedits
  obtain ⟨log, hlog⟩ := hledger
  have hrequests : ∃ log', (s.after e).columns =
      ((s.after e).ledgerWith (s.requests.map RequestRow.columns)).executeAll log' := by
    rw [columns_eq]
    rcases s.requests_after e with hsame | ⟨r, -, t, hrecord, ht⟩ | ⟨c, hc, t, hresolve, ht⟩
    · exact ⟨[], by rw [hsame]; rfl⟩
    · refine ⟨[.insertPending r.trackingId r.series r.first r.last r.requestedAt.toMillis], ?_⟩
      rw [ht]
      exact ledgerWith_recordRequest (s.after e) hrecord
    · obtain ⟨statement, hstatement⟩ :=
        exists_statement_of_resolve (s.after e) (Event.final_of_resolved hc) hresolve
      refine ⟨[statement], ?_⟩
      rw [ht]
      exact hstatement
  obtain ⟨log', hlog'⟩ := hrequests
  exact ⟨log ++ log', by rw [hlog', hlog, Tables.executeAll_append]; rfl⟩

/-- After a run the tables hold what statements have written since they were empty, and the columns
of each row fit its status. -/
theorem Store.run_columns (es : List Event) :
    ∃ log, (empty.run es).columns = Tables.executeAll {} log ∧ (empty.run es).columns.Fit := by
  have hlog : ∃ log, (empty.run es).columns = Tables.executeAll {} log := by
    induction es using List.reverseRecOn with
    | nil => exact ⟨[], rfl⟩
    | append_singleton es e ih =>
      obtain ⟨log, hlog⟩ := ih
      obtain ⟨log', hlog'⟩ := e.exists_log (run_coherent es)
      refine ⟨log ++ log', ?_⟩
      rw [run_append, Tables.executeAll_append, ← hlog]
      exact hlog'
  obtain ⟨log, hlog⟩ := hlog
  exact ⟨log, hlog, hlog ▸ Tables.Fit.empty.executeAll log⟩

end FolioLedger
