import FolioLedger.Proofs.Ledger.Aligned
import FolioLedger.Proofs.Ledger.Run

/-!
# Deeds of ranges

The deed of a range is what no later event touches: its id, series, bounds and times, the hash of
its artifact and the tracking id of its request.  Deeds are only ever added, one for each range that
is registered, and a call adds none but those it names (`Event.deeds`).  What is done to folios and
to the states of ranges touches neither deeds nor requests (`InStates`).
-/

namespace FolioLedger

open Store

/-- What of a range never changes. -/
def RangeRecord.deed (r : RangeRow) : RangeRow :=
  { r with status := .active, nearExpiryAlertedAt := none }

/-- The numbers of a series that a range is for. -/
def RangeRecord.scope (r : RangeRow) : RangeRequest := ⟨r.series, r.first, r.last⟩

def NewRange.scope (new : NewRange) : RangeRequest := ⟨new.series, new.first, new.last⟩

theorem RangeRequest.check_eq_ok_iff {limit : Nat} {r : RangeRequest} : r.check limit = .ok () ↔
    r.series.isIncomplete = false ∧ 1 ≤ r.first ∧ r.first ≤ r.last ∧ r.last - r.first + 1 ≤ limit := by
  unfold check quantity
  split
  · next hseries => simp [hseries]
  next hseries =>
  split
  · simp only [reduceCtorEq, false_iff]
    omega
  split
  · simp only [reduceCtorEq, false_iff]
    omega
  · simp only [true_iff]
    exact ⟨by simpa using hseries, by omega, by omega, by omega⟩

/-- A range for what a request asks for holds up like the request, if it expires after it was
authorized. -/
theorem NewRange.check_eq_ok_iff {limit : Nat} {new : NewRange} : new.check limit = .ok () ↔
    new.scope.check limit = .ok () ∧ ¬ new.expiresAt ≤ new.authorizedAt := by
  rw [RangeRequest.check_eq_ok_iff]
  unfold check scope
  split
  · next hseries => simp [hseries]
  next hseries =>
  rw [Bool.not_eq_true] at hseries
  simp only [hseries, true_and]
  split
  · simp only [reduceCtorEq, false_iff]
    omega
  split
  · simp only [reduceCtorEq, false_iff]
    omega
  split
  · simp only [reduceCtorEq, false_iff]
    omega
  split
  · next hexpiry => simp [hexpiry]
  · next hexpiry => exact iff_of_true rfl ⟨⟨by omega, by omega, by omega⟩, hexpiry⟩

/-- What two ranges of one deed have in common. -/
theorem RangeRecord.of_deed {r q : RangeRow} (h : r.deed = q.deed) :
    r.id = q.id ∧ r.scope = q.scope ∧ r.trackingId = q.trackingId ∧
      r.artifactHash = q.artifactHash := by
  have hid : r.deed.id = q.deed.id := congrArg (·.id) h
  have hscope : r.deed.scope = q.deed.scope := congrArg scope h
  have htracking : r.deed.trackingId = q.deed.trackingId := congrArg (·.trackingId) h
  have hhash : r.deed.artifactHash = q.deed.artifactHash := congrArg (·.artifactHash) h
  exact ⟨hid, hscope, htracking, hhash⟩

/-- The ranges that a call may register. -/
def Call.registered : Call → List NewRange
  | .register _ _ _ new => [new]
  | .ingest _ _ _ _ new => [new]
  | _ => []

namespace Store

def deeds (s : Store) : List RangeRow := s.ranges.map RangeRecord.deed

/-- From `s` to `t` a range is registered under an id, and the requests stay as they are. -/
structure Registers (s : Store) (id : String) (new : NewRange) (now : Instant) (t : Store) :
    Prop where
  admissible : s.Admissible id new
  ranges : t.ranges = s.ranges ++ [new.toRow id now]
  folios : t.folios = s.folios ++ new.folios id
  requests : t.requests = s.requests

variable {s t : Store}

theorem register_registers {limit : Nat} {faulty : Option Nat} {id : String} {now : Instant}
    {new : NewRange} {range : Range} (h : s.register limit faulty id now new = .ok (range, t)) :
    s.Registers id new now t := by
  obtain ⟨hadmissible, -, rfl⟩ := register_eq_ok h
  exact ⟨hadmissible, rfl, rfl, rfl⟩

theorem Registers.deeds {id : String} {new : NewRange} {now : Instant}
    (h : s.Registers id new now t) : t.deeds = s.deeds ++ [new.toRow id now] := by
  unfold Store.deeds
  rw [h.ranges, List.map_append]
  rfl

theorem deeds_congr (h : t.ranges = s.ranges) : t.deeds = s.deeds := by
  unfold deeds
  rw [h]

/-! ## Changes of states -/

/-- At most states of ranges and folios, and locks, differ. -/
structure InStates (s t : Store) : Prop where
  deeds : t.deeds = s.deeds
  requests : t.requests = s.requests

namespace InStates

theorem refl (s : Store) : InStates s s := ⟨rfl, rfl⟩

theorem trans {u : Store} (h : InStates s t) (h' : InStates t u) : InStates s u :=
  ⟨h'.deeds.trans h.deeds, h'.requests.trans h.requests⟩

theorem setStatus (s : Store) (p : RangeRow → Bool) (status : RangeStatus) :
    InStates s (s.setStatus p status) := by
  refine ⟨?_, rfl⟩
  simp only [Store.deeds, Store.setStatus, List.map_map]
  refine List.map_congr_left fun r _ => ?_
  simp only [Function.comp_apply]
  split <;> rfl

theorem setFolio (s : Store) (series : Series) (number : Nat) (state : FolioState) :
    InStates s (s.setFolio series number state) := ⟨rfl, rfl⟩

theorem settle (s : Store) (id : String) : InStates s (s.settle id) := by
  rw [settle_eq]
  exact setStatus ..

theorem markNearExpiry (s : Store) (id : String) (now : Instant) :
    InStates s (s.markNearExpiry id now).2 := by
  refine ⟨?_, rfl⟩
  simp only [Store.deeds, Store.markNearExpiry, List.map_map]
  refine List.map_congr_left fun r _ => ?_
  simp only [Function.comp_apply]
  split <;> rfl

theorem assign {now : Instant} {series : Series} {document : Option String} {a : Assignment}
    (h : s.assign now series document = .ok (a, t)) : InStates s t := by
  obtain ⟨row, hout⟩ := assign_handsOut h
  rw [hout.result]
  exact (setFolio ..).trans (settle ..)

theorem void {now : Instant} {series : Series} {number : Nat} {reason : String}
    {res : Folio × Nat} (h : s.void now series number reason = .ok (res, t)) : InStates s t := by
  obtain ⟨row, -, -, -, -, rfl⟩ := void_eq_ok h
  exact (setFolio ..).trans (settle ..)

theorem bind {series : Series} {number : Nat} {document : String} {d : Folio}
    (h : s.bind series number document = .ok (d, t)) : InStates s t := by
  simp only [Store.bind] at h
  obtain ⟨-, -, h⟩ := bind_eq_ok.1 h
  split at h
  · obtain ⟨folio, -, h⟩ := bind_eq_ok.1 h
    split at h
    · cases h
      exact setFolio ..
    · split at h
      · cases h
        exact refl s
      · cases h
    · cases h
  · cases h

theorem expire {now : Instant} {expired : List Range} (h : s.expire now = .ok (expired, t)) :
    InStates s t := by
  simp only [Store.expire] at h
  obtain ⟨_, -, h⟩ := bind_eq_ok.1 h
  cases h
  exact setStatus ..

end InStates

theorem SameLedger.deeds (h : SameLedger s t) : t.deeds = s.deeds := deeds_congr h.ranges

end Store

theorem Desk.assign_inStates (d : Desk) (s : Store) (now : Instant) (series : Series)
    (document : Option String) : InStates s (d.assign s now series document).2.1 := by
  unfold Desk.assign
  split
  · next h => exact .assign h
  · exact .refl s

theorem Desk.void_inStates (d : Desk) (s : Store) (now : Instant) (series : Series) (number : Nat)
    (reason : String) : InStates s (d.void s now series number reason).2.1 := by
  unfold Desk.void
  split
  · next h => exact .void h
  · exact .refl s

theorem Watch.Moves.inStates {now : Instant} {s t : Store} (h : Watch.Moves now s t) : InStates s t := by
  cases h with
  | expire h => exact .expire h
  | mark id => exact .markNearExpiry s id now

theorem Watch.sweep_inStates (w : Watch) (s : Store) (now : Instant) :
    InStates s (w.sweep s now).2.1 := by
  have hmoves := w.sweep_moves s now
  generalize (w.sweep s now).2.1 = t at hmoves ⊢
  induction hmoves with
  | refl => exact .refl s
  | tail _ hmove ih => exact ih.trans hmove.inStates

/-- A poll registers its range or leaves the store alone. -/
theorem Poll.register_store (p : Poll) (s : Store) (m : Monitor) (faulty : Option Nat) (id : String)
    (now : Instant) (new : NewRange) :
    (p.register m faulty s id now new).2 = s ∨ ∃ range, s.register m.maxRangeSize faulty id now new =
      .ok (range, (p.register m faulty s id now new).2) := by
  unfold Poll.register
  split
  · next range t h => exact .inr ⟨range, h⟩
  · split
    · exact .inl rfl
    · split <;> exact .inl rfl
  · exact .inl rfl

/-- A poll adds the deed of its range, or none. -/
theorem Poll.register_registers (p : Poll) (s : Store) (m : Monitor) (faulty : Option Nat) (id : String)
    (now : Instant) (new : NewRange) :
    (p.register m faulty s id now new).2 = s ∨
      s.Registers id new now (p.register m faulty s id now new).2 :=
  (p.register_store s m faulty id now new).imp_right fun ⟨_, h⟩ => Store.register_registers h

@[simp] theorem Poll.register_requests (p : Poll) (s : Store) (m : Monitor) (faulty : Option Nat)
    (id : String) (now : Instant) (new : NewRange) :
    (p.register m faulty s id now new).2.requests = s.requests := by
  rcases p.register_registers s m faulty id now new with h | h
  · rw [h]
  · exact h.requests

/-- An event adds the deed of one range that it names, or none. -/
theorem Event.deeds (s : Store) (e : Event) :
    (s.after e).deeds = s.deeds ∨
      ∃ id, ∃ new ∈ e.call.registered, s.Registers id new e.clock (s.after e) := by
  obtain ⟨clock, call⟩ := e
  cases call with
  | register limit faulty id new =>
    simp only [after]
    cases h : s.register limit faulty id clock new with
    | ok res => exact .inr ⟨id, new, List.mem_singleton_self _, register_registers h⟩
    | error failure => exact .inl rfl
  | ingest monitor faulty id poll new =>
    rcases poll.register_registers s monitor faulty id clock new with h | h
    · exact .inl (congrArg Store.deeds h)
    · exact .inr ⟨id, new, List.mem_singleton_self _, h⟩
  | assign desk series document =>
    exact .inl (desk.assign_inStates s clock series document).deeds
  | void desk series number reason =>
    exact .inl (desk.void_inStates s clock series number reason).deeds
  | bind => exact .inl (keep_snd_of (InStates.refl s) fun _ _ h => .bind h).deeds
  | expire => exact .inl (keep_snd_of (InStates.refl s) fun _ _ h => .expire h).deeds
  | markNearExpiry id moment => exact .inl (InStates.markNearExpiry s id moment).deeds
  | sweep watch moment => exact .inl (watch.sweep_inStates s moment).deeds
  | _ => exact .inl (Event.sameLedger rfl).deeds

/-- With the same deeds, each range was there before in some state. -/
theorem Store.exists_of_deeds {s t : Store} (h : t.deeds = s.deeds) {r : RangeRow}
    (hr : r ∈ t.ranges) : ∃ q ∈ s.ranges, q.deed = r.deed := by
  have hdeed : r.deed ∈ s.deeds := h ▸ List.mem_map_of_mem hr
  exact List.mem_map.1 hdeed

/-- A range that is there after an event was there in some state, or the event registered it. -/
theorem Event.range_origin (s : Store) (e : Event) {r : RangeRow} (hr : r ∈ (s.after e).ranges) :
    (∃ q ∈ s.ranges, q.deed = r.deed) ∨ ∃ id, ∃ new ∈ e.call.registered,
      s.Registers id new e.clock (s.after e) ∧ r = new.toRow id e.clock := by
  rcases e.deeds s with hdeeds | ⟨id, new, hnew, hregisters⟩
  · exact .inl (Store.exists_of_deeds hdeeds hr)
  · rw [hregisters.ranges] at hr
    rcases List.mem_append.1 hr with hold | hnewest
    · exact .inl ⟨r, hold, rfl⟩
    · exact .inr ⟨id, new, hnew, hregisters, List.mem_singleton.1 hnewest⟩

theorem Store.Aligned.range?_of_mem {s : Store} (h : Aligned s) {r : RangeRow}
    (hr : r ∈ s.ranges) : s.range? r.id = some r := by
  cases hfound : s.range? r.id with
  | none => simpa using List.find?_eq_none.1 hfound r hr
  | some q =>
    have hid : q.id = r.id := by simpa using List.find?_some hfound
    rw [h.eq_of_id (List.mem_of_find?_eq_some hfound) hr hid]

/-- An admissible range is not for the very numbers of one that is there. -/
theorem Store.Aligned.scope_ne {s : Store} (h : Aligned s) {id : String} {new : NewRange}
    (hadmissible : s.Admissible id new) {r : RangeRow} (hr : r ∈ s.ranges) : r.scope ≠ new.scope := by
  intro hscope
  obtain ⟨hseries, hfirst, -⟩ := RangeRequest.mk.inj hscope
  -- The first number of the one is a folio of the other, where only lower numbers may be.
  obtain ⟨f, hf, hfseries, hfnumber, -⟩ := h.exists_folio hr (Nat.le_refl _) (h.bounds r hr).2
  have := hadmissible.free f hf (hfseries.trans hseries)
  have := hadmissible.first_le_last
  omega

/-- No event loses a deed. -/
theorem Event.exists_of_deed (s : Store) (e : Event) {r : RangeRow} (hr : r ∈ s.ranges) :
    ∃ r' ∈ (s.after e).ranges, r'.deed = r.deed := by
  have hdeed : r.deed ∈ (s.after e).deeds := by
    rcases e.deeds s with h | ⟨id, new, -, h⟩
    · rw [h]
      exact List.mem_map_of_mem hr
    · rw [h.deeds]
      exact List.mem_append_left _ (List.mem_map_of_mem hr)
  exact List.mem_map.1 hdeed

/-- A range keeps its id and its tracking id. -/
theorem Event.exists_named (s : Store) (e : Event) {id : String} {trackingId : Option String}
    (h : ∃ r ∈ s.ranges, r.id = id ∧ r.trackingId = trackingId) :
    ∃ r ∈ (s.after e).ranges, r.id = id ∧ r.trackingId = trackingId := by
  obtain ⟨r, hr, rfl, rfl⟩ := h
  obtain ⟨r', hr', hdeed⟩ := e.exists_of_deed s hr
  obtain ⟨hid, -, htracking, -⟩ := RangeRecord.of_deed hdeed
  exact ⟨r', hr', hid, htracking⟩

end FolioLedger
