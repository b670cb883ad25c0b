import FolioLedger.Proofs.Ledger.Part
import FolioLedger.Store.Usage

/-!
# Operations on the part of a series

An operation on a series answers from the part of the series alone: it gives the same answer where the
rest of the store is not there, up to the names of ranges, and it leaves such a pair again
(`IsPart.register`, `IsPart.desk_assign`, `IsPart.desk_void`, `IsPart.bind`).  So do the reads.  Only a
sweep goes through all series at once.  When it succeeds each series gets what it would get by itself
(`IsPart.expire_of_ok`), but it fails for all if a range of one of them cannot be read back.
-/

namespace FolioLedger

section

variable (ρ : String → String)

def RangeUsage.rename (u : RangeUsage) : RangeUsage := { u with rangeId := ρ u.rangeId }

def UsageReport.rename (r : UsageReport) : UsageReport :=
  { r with
    folios := r.folios.map (Folio.rename ρ)
    activeRanges := r.activeRanges.map (RangeUsage.rename ρ) }

variable {ρ}

/-- Where each row is read alike, so are all. -/
theorem mapM_rename {α β : Type} {f : α → α} {r : β → β} {g g' : α → Except Failure β} {rows : List α}
    (h : ∀ a ∈ rows, g' (f a) = renameAnswer ρ r (g a)) :
    (rows.map f).mapM g' = renameAnswer ρ (List.map r) (rows.mapM g) := by
  induction rows with
  | nil => rfl
  | cons a rows ih =>
    rw [List.map_cons, List.mapM_cons, List.mapM_cons, h a List.mem_cons_self,
      ih fun b hb => h b (List.mem_cons_of_mem _ hb)]
    cases g a with
    | error failure => rfl
    | ok d => cases rows.mapM g <;> rfl

/-- What is read of some of the rows. -/
theorem mapM_filter {α β : Type} {g : α → Except Failure β} {p : α → Bool} {q : β → Bool}
    {rows : List α} {ds : List β} (hpq : ∀ a d, g a = .ok d → q d = p a) (h : rows.mapM g = .ok ds) :
    (rows.filter p).mapM g = .ok (ds.filter q) := by
  induction rows generalizing ds with
  | nil =>
    cases h
    rfl
  | cons a rows ih =>
    rw [List.mapM_cons] at h
    obtain ⟨d, hd, h⟩ := bind_eq_ok.1 h
    obtain ⟨ds, hds, h⟩ := bind_eq_ok.1 h
    cases h
    have hq := hpq a d hd
    cases hp : p a with
    | true =>
      rw [List.filter_cons_of_pos hp, List.filter_cons_of_pos (hq.trans hp), List.mapM_cons, hd, ih hds]
      rfl
    | false =>
      rw [List.filter_cons_of_neg (by simp [hp]), List.filter_cons_of_neg (by simp [hq, hp]), ih hds]

theorem mapM_cons_error {α β : Type} {g : α → Except Failure β} {a : α} {d : β} {rows : List α}
    {failure : Failure} (hd : g a = .ok d) :
    (a :: rows).mapM g = .error failure ↔ rows.mapM g = .error failure := by
  rw [List.mapM_cons, hd]
  cases rows.mapM g with
  | ok ds => exact iff_of_false nofun nofun
  | error other => exact Iff.rfl

/-- What is not asked for does no harm if all of it can be read. -/
theorem mapM_filter_of_error {α β : Type} {g : α → Except Failure β} {p : α → Bool} {rows : List α}
    {failure : Failure} (hread : ∀ a ∈ rows, p a = false → ∃ d, g a = .ok d)
    (h : rows.mapM g = .error failure) : (rows.filter p).mapM g = .error failure := by
  induction rows with
  | nil => cases h
  | cons a rows ih =>
    replace ih := ih fun b hb => hread b (List.mem_cons_of_mem _ hb)
    cases hp : p a with
    | true =>
      rw [List.filter_cons_of_pos hp]
      cases hd : g a with
      | error other =>
        rw [List.mapM_cons, hd] at h ⊢
        exact h
      | ok d =>
        rw [mapM_cons_error hd] at h ⊢
        exact ih h
    | false =>
      obtain ⟨d, hd⟩ := hread a List.mem_cons_self hp
      rw [mapM_cons_error hd] at h
      rw [List.filter_cons_of_neg (by simp [hp])]
      exact ih h

theorem nameless_check (limit : Nat) (new : NewRange) : Nameless ρ (new.check limit) := by
  intro failure h
  unfold NewRange.check at h
  repeat' split at h
  all_goals
    cases h
    try rfl

theorem nameless_checkRows (s : Store) (faulty : Option Nat) (id : String) (new : NewRange) :
    Nameless ρ (s.checkRows faulty id new) := by
  intro failure h
  unfold Store.checkRows at h
  repeat' split at h
  all_goals
    cases h
    try rfl

end

namespace Store

theorem assign_eq_ok {s t : Store} {now : Instant} {series : Series} {document : Option String}
    {a : Assignment} (h : s.assign now series document = .ok (a, t)) :
    ∃ row ∈ s.assignable series now.toMillis,
      t = (s.setFolio series row.number (.used now.toMillis document)).settle row.rangeId := by
  simp only [assign] at h
  split at h
  · next row hrow =>
    obtain ⟨folio, -, h⟩ := bind_eq_ok.1 h
    cases h
    exact ⟨row, (leastNumber_eq_some hrow).1, rfl⟩
  · cases h

theorem bind_eq_ok_cases {s t : Store} {series : Series} {number : Nat} {document : String} {d : Folio}
    (h : s.bind series number document = .ok (d, t)) :
    t = s ∨ ∃ state, t = s.setFolio series number state := by
  simp only [Store.bind] at h
  obtain ⟨-, -, h⟩ := bind_eq_ok.1 h
  split at h
  · obtain ⟨folio, -, h⟩ := bind_eq_ok.1 h
    split at h
    · cases h
      exact .inr ⟨_, rfl⟩
    · split at h
      · cases h
        exact .inl rfl
      · cases h
    · cases h
  · cases h

namespace IsPart

variable {ρ : String → String} {series other : Series} {s t : Store} {id : String} {now : Instant}

/-! ## Registering -/

theorem overlapping? (h : IsPart ρ series s t) (first last : Nat) (status : RangeStatus) :
    t.overlapping? series first last status =
      (s.overlapping? series first last status).map (RangeRecord.rename ρ) := by
  unfold Store.overlapping?
  rw [h.ranges]
  refine find?_part (fun r _ hp => ?_) fun _ _ _ => rfl
  simp only [decide_eq_true_eq] at hp ⊢
  exact hp.1

theorem obstacle? (h : IsPart ρ series s t) (first last : Nat) :
    t.obstacle? series first last = (s.obstacle? series first last).map ρ := by
  unfold Store.obstacle?
  rw [h.overlapping?, h.overlapping?, h.foliosOf, List.filter_map, leastNumber_map_rename]
  cases s.overlapping? series first last .active with
  | some r => rfl
  | none =>
  cases s.overlapping? series first last .expired with
  | some r => rfl
  | none =>
    simp only [Option.map_none, Option.map_map]
    rfl

theorem checkNumbers {new : NewRange} (h : IsPart ρ new.series s t) :
    t.checkNumbers new = renameAnswer ρ (fun u => u) (s.checkNumbers new) := by
  unfold Store.checkNumbers
  rw [h.obstacle?, h.maxIssued?]
  cases s.obstacle? new.series new.first new.last with
  | some existing => rfl
  | none =>
  cases s.maxIssued? new.series with
  | none => rfl
  | some issued =>
    simp only [Option.map_none]
    split <;> rfl

theorem checkRows (hρ : Function.Injective ρ) (h : IsPart ρ series s t) (hid : s.Owns series id)
    (faulty : Option Nat) (new : NewRange) :
    t.checkRows faulty (ρ id) new = s.checkRows faulty id new := by
  have hany : t.ranges.any (·.id = ρ id) = s.ranges.any (·.id = id) := by
    simpa using h.any_of_id hρ hid (p := fun _ => True) fun _ => Iff.rfl
  unfold Store.checkRows
  rw [hany]

theorem register (hρ : Function.Injective ρ) (now : Instant) {new : NewRange}
    (h : IsPart ρ new.series s t) (hid : s.Owns new.series id) (limit : Nat) (faulty : Option Nat) :
    AlikeBy ρ (IsPart ρ new.series) (RangeRecord.rename ρ) (s.register limit faulty id now new)
      (t.register limit faulty (ρ id) now new) := by
  unfold Store.register
  refine .check_bind (nameless_check limit new) (.check_bind (nameless_checkNumber new.first)
    (.check_bind (nameless_checkNumber new.last) ?_))
  rw [h.checkNumbers, h.checkRows hρ hid]
  cases s.checkNumbers new with
  | error failure => exact .inr ⟨failure, rfl, rfl⟩
  | ok =>
  show AlikeBy ρ _ _ (s.checkRows faulty id new >>= _) (s.checkRows faulty id new >>= _)
  refine .check_bind (nameless_checkRows s faulty id new) (.inl ⟨_, _, _, rfl, rfl, ?_⟩)
  have hrows : ∀ f ∈ new.folios id, f.series = new.series := by
    intro f hf
    obtain ⟨n, -, rfl⟩ := List.mem_map.1 hf
    rfl
  have hrow : (new.toRow id now).series = new.series := rfl
  have hpart := h.append hrow hrows
  rw [NewRange.map_rename_folios] at hpart
  exact hpart

theorem register_other {new : NewRange} {limit : Nat} {faulty : Option Nat} {range : Range}
    {s' : Store} (h : IsPart ρ series s t) (hother : new.series ≠ series)
    (hregister : s.register limit faulty id now new = .ok (range, s')) : IsPart ρ series s' t := by
  obtain ⟨-, -, rfl⟩ := register_eq_ok hregister
  refine h.append_other hother rfl fun f hf => ?_
  obtain ⟨n, -, rfl⟩ := List.mem_map.1 hf
  rfl

/-! ## Handing out, voiding and binding -/

section

variable (hρ : Function.Injective ρ) (h : IsPart ρ series s t) (hs : Aligned s)
include hρ h hs

/-- A folio of the series is put into a state, and its range is settled. -/
theorem take {row : FolioRow} (hrow : row ∈ s.folios) (hseries : row.series = series) (number : Nat)
    (state : FolioState) :
    IsPart ρ series ((s.setFolio series number state).settle row.rangeId)
      ((t.setFolio series number state).settle (ρ row.rangeId)) :=
  (h.setFolio number state).settle hρ (hs.setFolio series number state)
    (hseries ▸ hs.owns_of_folio hrow)

theorem desk_assign (now : Instant) (d : Desk) (document : Option String) :
    (d.assign t now series document).1 =
        renameAnswer ρ (Assignment.rename ρ) (d.assign s now series document).1 ∧
      IsPart ρ series (d.assign s now series document).2.1 (d.assign t now series document).2.1 ∧
      (d.assign t now series document).2.2 = (d.assign s now series document).2.2 := by
  have halike : AlikeBy ρ (fun s t => Aligned s ∧ IsPart ρ series s t) (Assignment.rename ρ)
      (s.assign now series document) (t.assign now series document) := by
    refine assign_alikeBy (h.assignable hρ hs) (fun _ => h.shortage hρ hs) ?_ ?_ ?_ document
    · intro row hrow state
      obtain ⟨hrow, hseries, -⟩ := mem_assignable.1 hrow
      exact (h.setFolio row.number state).isSpent hρ (hs.setFolio series row.number state)
        (hseries ▸ hs.owns_of_folio hrow)
    · intro row hrow state
      obtain ⟨hrow, hseries, -⟩ := mem_assignable.1 hrow
      exact ⟨(hs.setFolio ..).settle _, h.take hρ hs hrow hseries row.number state⟩
    · rintro s' t' ⟨hs', h'⟩
      exact h'.countAvailable hρ hs'
  obtain ⟨hanswer, ⟨-, hpart⟩, htold⟩ :=
    d.assign_alikeBy ⟨hs, h⟩ (h.countAvailable hρ hs) halike
  exact ⟨hanswer, hpart, htold⟩

theorem desk_void (now : Instant) (d : Desk) (number : Nat) (reason : String) :
    (d.void t now series number reason).1 =
        renameAnswer ρ (Folio.rename ρ) (d.void s now series number reason).1 ∧
      IsPart ρ series (d.void s now series number reason).2.1
        (d.void t now series number reason).2.1 ∧
      (d.void t now series number reason).2.2 = (d.void s now series number reason).2.2 := by
  have halike : AlikeBy ρ (fun s t => Aligned s ∧ IsPart ρ series s t)
      (fun res : Folio × Nat => (res.1.rename ρ, res.2)) (s.void now series number reason)
      (t.void now series number reason) := by
    refine void_alikeBy (h.folio? number) ?_ ?_ reason
    · intro row hrow state
      obtain ⟨hrow, hseries, -⟩ := folio?_eq_some hrow
      exact ⟨(hs.setFolio ..).settle _, h.take hρ hs hrow hseries number state⟩
    · rintro s' t' ⟨hs', h'⟩
      exact h'.countAvailable hρ hs'
  obtain ⟨hanswer, ⟨-, hpart⟩, htold⟩ := d.void_alikeBy ⟨hs, h⟩ halike
  exact ⟨hanswer, hpart, htold⟩

end

theorem bind (h : IsPart ρ series s t) (number : Nat) (document : String) :
    AlikeBy ρ (IsPart ρ series) (Folio.rename ρ) (s.bind series number document)
      (t.bind series number document) :=
  bind_alikeBy (h.folio? number) (fun state => h.setFolio number state) h document

section

variable (h : IsPart ρ series s t) (hs : Aligned s) (hother : other ≠ series)
include h hs hother

theorem take_other {row : FolioRow} (hrow : row ∈ s.folios) (hseries : row.series = other)
    (number : Nat) (state : FolioState) :
    IsPart ρ series ((s.setFolio other number state).settle row.rangeId) t :=
  (h.setFolio_other hother number state).settle_other hother (hseries ▸ hs.owns_of_folio hrow)

theorem desk_assign_other (d : Desk) (document : Option String) :
    IsPart ρ series (d.assign s now other document).2.1 t := by
  unfold Desk.assign
  cases hassign : s.assign now other document with
  | error failure => exact h
  | ok res =>
    obtain ⟨row, hrow, hres⟩ := assign_eq_ok hassign
    obtain ⟨hrow, hseries, -⟩ := mem_assignable.1 hrow
    show IsPart ρ series res.2 t
    rw [hres]
    exact h.take_other hs hother hrow hseries row.number _

theorem desk_void_other (d : Desk) (number : Nat) (reason : String) :
    IsPart ρ series (d.void s now other number reason).2.1 t := by
  unfold Desk.void
  cases hvoid : s.void now other number reason with
  | error failure => exact h
  | ok res =>
    obtain ⟨row, hrow, -, hseries, -, hres⟩ := void_eq_ok hvoid
    show IsPart ρ series res.2 t
    rw [hres]
    exact h.take_other hs hother hrow hseries number _

omit hs in
theorem bind_other {number : Nat} {document : String} {d : Folio} {s' : Store}
    (hbind : s.bind other number document = .ok (d, s')) : IsPart ρ series s' t := by
  rcases bind_eq_ok_cases hbind with rfl | ⟨state, rfl⟩
  · exact h
  · exact h.setFolio_other hother number state

end

/-! ## Reading -/

theorem getFolio (h : IsPart ρ series s t) (number : Nat) :
    t.getFolio series number = renameAnswer ρ (Folio.rename ρ) (s.getFolio series number) := by
  unfold Store.getFolio
  rw [h.folio?, renameAnswer_bind ρ (nameless_checkNumber number)]
  refine bind_congr fun _ => ?_
  cases s.folio? series number with
  | none => rfl
  | some row => exact row.toFolio_rename ρ

theorem usageReport (hρ : Function.Injective ρ) (h : IsPart ρ series s t) (hs : Aligned s)
    (start stop : Instant) : t.usageReport series start stop =
      renameAnswer ρ (UsageReport.rename ρ) (s.usageReport series start stop) := by
  have hfolios : t.changedFolios series start.toMillis stop.toMillis =
      (s.changedFolios series start.toMillis stop.toMillis).map (FolioRow.rename ρ) := by
    unfold changedFolios
    rw [h.foliosOf, List.filter_map]
    refine (List.map_mergeSort ?_).symm
    exact fun _ _ _ _ => rfl
  have hranges : t.activeRanges series = (s.activeRanges series).map (RangeRecord.rename ρ) := by
    have hactive : (t.ranges.filter fun r => r.series = series ∧ r.status = .active) =
        (s.ranges.filter fun r => r.series = series ∧ r.status = .active).map
          (RangeRecord.rename ρ) := by
      rw [h.ranges]
      refine filter_part (fun r _ hp => ?_) fun _ _ _ => rfl
      simp only [decide_eq_true_eq] at hp ⊢
      exact hp.1
    unfold activeRanges
    rw [hactive]
    refine (List.map_mergeSort ?_).symm
    exact fun _ _ _ _ => rfl
  have husage : ∀ r ∈ s.activeRanges series,
      t.rangeUsage (r.rename ρ) = renameAnswer ρ (RangeUsage.rename ρ) (s.rangeUsage r) := by
    intro r hr
    obtain ⟨hmem, hactive⟩ := List.mem_filter.1 (List.mem_mergeSort.1 hr)
    obtain ⟨hseries, -⟩ := of_decide_eq_true hactive
    have hcount := h.countOf hρ hs (hseries ▸ hs.owns_of_range hmem)
    unfold rangeUsage
    rw [renameAnswer_bind ρ (Instant.nameless_ofMillis ρ _)]
    refine bind_congr fun expiresAt => ?_
    show pure (RangeUsage.mk (ρ r.id) r.first r.last expiresAt (t.countOf (ρ r.id) _)
      (t.countOf (ρ r.id) _) (t.countOf (ρ r.id) _)) = _
    rw [hcount, hcount, hcount]
    rfl
  have hrow : ∀ row ∈ s.changedFolios series start.toMillis stop.toMillis,
      (row.rename ρ).toFolio = renameAnswer ρ (Folio.rename ρ) row.toFolio := by
    intro row _
    exact row.toFolio_rename ρ
  have hread := mapM_rename hrow
  unfold Store.usageReport
  by_cases hreversed : stop < start
  · rw [if_pos hreversed, if_pos hreversed]
    rfl
  rw [if_neg hreversed, if_neg hreversed, hfolios, hranges, hread, mapM_rename husage]
  cases (s.changedFolios series start.toMillis stop.toMillis).mapM FolioRow.toFolio with
  | error failure => rfl
  | ok folios =>
  cases (s.activeRanges series).mapM s.rangeUsage with
  | error failure => rfl
  | ok ranges =>
    have hstatus : ∀ status : FolioStatus,
        ((folios.map (Folio.rename ρ)).filter (·.status = status)).length =
          (folios.filter (·.status = status)).length := by
      intro status
      rw [List.filter_map, List.length_map]
      rfl
    show Except.ok (UsageReport.mk series start stop _ _ _ _) = _
    rw [hstatus, hstatus]
    rfl

end IsPart

/-! ## Sweeps -/

/-- The active ranges whose expiry has come, as they will be recorded. -/
def expiring (s : Store) (now : Millis) : List RangeRow :=
  (s.ranges.filter (isDue · now)).map fun r => { r with status := .expired }

theorem expire_eq (s : Store) (now : Instant) :
    s.expire now = (s.expiring now.toMillis).mapM RangeRecord.toRange >>= fun expired =>
      .ok (expired, s.setStatus (isDue · now.toMillis) .expired) := rfl

theorem nameless_expire (ρ : String → String) (s : Store) (now : Instant) :
    Nameless ρ (s.expire now) := by
  rw [expire_eq]
  exact (Nameless.mapM (RangeRecord.nameless_toRange ρ) _).bind fun _ => nameless_ok ρ _

/-- A sweep that fails would fail in the same way on the ranges of the series alone. -/
def FailsBy (s : Store) (series : Series) (moment : Instant) : Prop :=
  ∀ failure, s.expire moment = .error failure → (s.part series).expire moment = .error failure

variable {s t : Store} {series : Series}

theorem part_expiring (now : Millis) :
    (s.part series).expiring now = (s.expiring now).filter (·.series = series) := by
  show ((s.ranges.filter _).filter _).map _ = ((s.ranges.filter _).map _).filter _
  rw [List.filter_map, List.filter_filter, List.filter_filter]
  congr 1
  exact List.filter_congr fun r _ => Bool.and_comm ..

theorem part_expire_of_ok {now : Instant} {expired : List Range} {s' : Store}
    (h : s.expire now = .ok (expired, s')) :
    (s.part series).expire now = .ok (expired.filter (·.series = series),
      (s.part series).setStatus (isDue · now.toMillis) .expired) := by
  rw [expire_eq] at h
  obtain ⟨ds, hds, h⟩ := bind_eq_ok.1 h
  cases h
  have hread := mapM_filter (p := fun r => r.series = series) (q := fun r => r.series = series)
    (fun r d hd => by rw [(RangeRecord.toRange_eq_ok hd).2.1]) hds
  rw [expire_eq, part_expiring, hread]
  rfl

namespace IsPart

variable {ρ : String → String}

theorem expiring (h : IsPart ρ series s t) (now : Millis) :
    t.expiring now = ((s.part series).expiring now).map (RangeRecord.rename ρ) := by
  unfold Store.expiring
  rw [h.ranges, List.filter_map, List.map_map, List.map_map]
  rfl

theorem expire (h : IsPart ρ series s t) (now : Instant) :
    (t.expire now).map Prod.fst =
      renameAnswer ρ (List.map (RangeRecord.rename ρ)) (((s.part series).expire now).map Prod.fst) := by
  rw [expire_eq, expire_eq, h.expiring, mapM_rename fun r _ => r.toRange_rename ρ]
  cases ((s.part series).expiring now.toMillis).mapM RangeRecord.toRange <;> rfl

/-- The series gets its share of a sweep unless the sweep fails by the range of another one. -/
theorem sweep_iff (h : IsPart ρ series s t) (moment : Instant) :
    renameAnswer ρ (List.map (RangeRecord.rename ρ))
        (((s.expire moment).map Prod.fst).map (List.filter (·.series = series))) =
      (t.expire moment).map Prod.fst ↔ s.FailsBy series moment := by
  rw [h.expire]
  unfold FailsBy
  cases hs : s.expire moment with
  | ok res =>
    rw [part_expire_of_ok hs]
    exact iff_of_true rfl fun _ hfailed => absurd hfailed (by simp)
  | error failure =>
    have hsame := nameless_expire ρ s moment failure hs
    show Except.error (failure.rename ρ) = _ ↔ _
    rw [hsame]
    cases hp : (s.part series).expire moment with
    | ok res => simp [Except.map]
    | error other =>
      show Except.error failure = Except.error (other.rename ρ) ↔ _
      rw [nameless_expire ρ (s.part series) moment other hp]
      simp [eq_comm]

theorem sweep (h : IsPart ρ series s t) {moment : Instant} (hfails : s.FailsBy series moment) :
    IsPart ρ series (s.keep ((s.expire moment).map Prod.snd))
      (t.keep ((t.expire moment).map Prod.snd)) := by
  have hanswer := (h.sweep_iff moment).2 hfails
  cases hs : s.expire moment with
  | error failure =>
    rw [hs] at hanswer
    cases ht : t.expire moment with
    | error other => exact h
    | ok res =>
      rw [ht] at hanswer
      cases hanswer
  | ok res =>
    rw [hs] at hanswer
    cases ht : t.expire moment with
    | error other =>
      rw [ht] at hanswer
      cases hanswer
    | ok res' =>
      rw [expire_eq] at hs ht
      obtain ⟨_, -, hs⟩ := bind_eq_ok.1 hs
      obtain ⟨_, -, ht⟩ := bind_eq_ok.1 ht
      cases hs
      cases ht
      exact h.setStatus (q := (isDue · moment.toMillis)) (fun _ _ _ => rfl) .expired

end IsPart

end Store

end FolioLedger
