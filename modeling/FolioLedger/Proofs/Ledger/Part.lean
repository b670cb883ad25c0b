import FolioLedger.Proofs.Ledger.Integrity
import FolioLedger.Proofs.Ledger.Naming

/-!
# The part of a series

A store is the parts of its series put together: a range has a series, and its folios have the same
(`Aligned.owns_of_folio`).  So a look-up by the id of a range of one series stays in that series, though
it does not ask for it.  `IsPart` says that a second store holds what the first one holds of one
series, with ranges named anew.  Then the look-ups of the series give the same in both, and an operation
on the series takes such a pair to such a pair, while one on another series leaves the part alone.
-/

namespace FolioLedger

/-! ## Rows that are looked for in a part of a table -/

section

variable {α : Type} {rows : List α} {own p q : α → Bool} {f : α → α}

theorem filter_part (hown : ∀ r ∈ rows, p r = true → own r = true)
    (hpq : ∀ r ∈ rows, own r = true → q (f r) = p r) :
    ((rows.filter own).map f).filter q = (rows.filter p).map f := by
  rw [List.filter_map, List.filter_filter]
  congr 1
  refine List.filter_congr fun r hr => ?_
  cases hr' : own r with
  | true => rw [Bool.and_true, Function.comp_apply, hpq r hr hr']
  | false =>
    cases hp : p r with
    | true => rw [hown r hr hp] at hr'; cases hr'
    | false => rw [Bool.and_false]

theorem find?_part (hown : ∀ r ∈ rows, p r = true → own r = true)
    (hpq : ∀ r ∈ rows, own r = true → q (f r) = p r) :
    ((rows.filter own).map f).find? q = (rows.find? p).map f := by
  rw [← List.head?_filter, ← List.head?_filter, filter_part hown hpq, List.head?_map]

theorem any_part (hown : ∀ r ∈ rows, p r = true → own r = true)
    (hpq : ∀ r ∈ rows, own r = true → q (f r) = p r) :
    ((rows.filter own).map f).any q = rows.any p := by
  rw [List.any_map, List.any_filter, Bool.eq_iff_iff, List.any_eq_true, List.any_eq_true]
  refine exists_congr fun r => and_congr_right fun hr => ?_
  rw [Bool.and_eq_true, Function.comp_apply]
  constructor
  · rintro ⟨hr', hq⟩
    rwa [hpq r hr hr'] at hq
  · intro hp
    exact ⟨hown r hr hp, (hpq r hr (hown r hr hp)).trans hp⟩

variable {g k : α → α}

/-- A change of rows that keeps their owners is a change of each part. -/
theorem map_part (hkeep : ∀ r ∈ rows, own (g r) = own r)
    (hg : ∀ r ∈ rows, own r = true → k (f r) = f (g r)) :
    ((rows.map g).filter own).map f = ((rows.filter own).map f).map k := by
  rw [List.filter_map, List.map_map, List.map_map, List.filter_congr (p := own ∘ g) hkeep]
  refine List.map_congr_left fun r hr => ?_
  obtain ⟨hr, hr'⟩ := List.mem_filter.1 hr
  exact (hg r hr hr').symm

theorem map_other (hkeep : ∀ r ∈ rows, own (g r) = own r)
    (hg : ∀ r ∈ rows, own r = true → g r = r) : (rows.map g).filter own = rows.filter own := by
  have hmap := map_part (f := id) (k := id) hkeep fun r hr hr' => (hg r hr hr').symm
  simpa only [List.map_id] using hmap

end

namespace Store

/-- The rows of one series. -/
def part (s : Store) (series : Series) : Store :=
  { s with ranges := s.ranges.filter (·.series = series), folios := s.foliosOf series }

/-- No range of another series has the id. -/
def Owns (s : Store) (series : Series) (id : String) : Prop :=
  ∀ r ∈ s.ranges, r.id = id → r.series = series

variable {s t : Store} {series : Series} {id : String}

theorem Aligned.owns_of_range (h : Aligned s) {r : RangeRow} (hr : r ∈ s.ranges) :
    s.Owns r.series r.id := by
  intro q hq hid
  rw [h.eq_of_id hq hr hid]

theorem Aligned.owns_of_folio (h : Aligned s) {f : FolioRow} (hf : f ∈ s.folios) :
    s.Owns f.series f.rangeId := by
  intro r hr hid
  exact (h.of_rangeId hf hr hid.symm).1.symm

theorem Aligned.series_of_owns (h : Aligned s) (hid : s.Owns series id) {f : FolioRow}
    (hf : f ∈ s.folios) (hrange : f.rangeId = id) : f.series = series := by
  obtain ⟨r, hr, hrid, hseries, -⟩ := h.exists_range hf
  rw [hseries]
  exact hid r hr (hrid.trans hrange)

/-- The second store holds the rows of one series of the first one, with ranges named anew. -/
structure IsPart (ρ : String → String) (series : Series) (s t : Store) : Prop where
  ranges : t.ranges = (s.part series).ranges.map (RangeRecord.rename ρ)
  folios : t.folios = (s.part series).folios.map (FolioRow.rename ρ)

namespace IsPart

variable {ρ : String → String} {now : Millis}

theorem empty : IsPart ρ series Store.empty Store.empty := ⟨rfl, rfl⟩

/-! ## Looking up -/

theorem foliosOf (h : IsPart ρ series s t) :
    t.foliosOf series = (s.foliosOf series).map (FolioRow.rename ρ) := by
  unfold Store.foliosOf
  rw [h.folios]
  exact filter_part (fun _ _ hf => hf) fun _ _ _ => rfl

theorem folio? (h : IsPart ρ series s t) (number : Nat) :
    t.folio? series number = (s.folio? series number).map (FolioRow.rename ρ) := by
  unfold Store.folio?
  rw [h.folios]
  refine find?_part (fun f _ hf => ?_) fun _ _ _ => rfl
  simp only [decide_eq_true_eq] at hf ⊢
  exact hf.1

theorem maxNumber? (h : IsPart ρ series s t) : t.maxNumber? series = s.maxNumber? series := by
  unfold Store.maxNumber?
  rw [h.foliosOf, List.map_map]
  rfl

theorem maxIssued? (h : IsPart ρ series s t) : t.maxIssued? series = s.maxIssued? series := by
  unfold Store.maxIssued?
  rw [h.foliosOf, List.filter_map, List.map_map]
  rfl

section

variable (hρ : Function.Injective ρ) (h : IsPart ρ series s t) (hs : Aligned s)
include hρ h hs

theorem hasStock (hid : s.Owns series id) : t.hasStock (ρ id) = s.hasStock id := by
  unfold Store.hasStock
  rw [h.folios]
  refine any_part (fun f hf hp => ?_) fun f _ _ => ?_
  · simp only [decide_eq_true_eq] at hp ⊢
    exact hs.series_of_owns hid hf hp.1
  · rw [decide_eq_decide]
    exact and_congr_left' hρ.eq_iff

theorem countOf (hid : s.Owns series id) (status : FolioStatus) :
    t.countOf (ρ id) status = s.countOf id status := by
  unfold Store.countOf
  have hrows : (t.folios.filter fun f => f.rangeId = ρ id ∧ f.state.status = status) =
      (s.folios.filter fun f => f.rangeId = id ∧ f.state.status = status).map
        (FolioRow.rename ρ) := by
    rw [h.folios]
    refine filter_part (fun f hf hp => ?_) fun f _ _ => ?_
    · simp only [decide_eq_true_eq] at hp ⊢
      exact hs.series_of_owns hid hf hp.1
    · rw [decide_eq_decide]
      exact and_congr_left' hρ.eq_iff
  rw [hrows, List.length_map]

omit hs in
theorem any_of_id (hid : s.Owns series id) {p : RangeRow → Prop} [DecidablePred p]
    (hp : ∀ r : RangeRow, p (r.rename ρ) ↔ p r) :
    (t.ranges.any fun r => r.id = ρ id ∧ p r) = s.ranges.any fun r => r.id = id ∧ p r := by
  rw [h.ranges]
  refine any_part (fun r hr hp => ?_) fun r _ _ => ?_
  · simp only [decide_eq_true_eq] at hp ⊢
    exact hid r hr hp.1
  · rw [decide_eq_decide]
    exact and_congr hρ.eq_iff (hp r)

omit hs in
theorem isLive (hid : s.Owns series id) : t.isLive (ρ id) now = s.isLive id now :=
  h.any_of_id hρ hid (p := fun r => r.status = .active ∧ now < r.expiresAt) fun _ => Iff.rfl

theorem isSpent (hid : s.Owns series id) : t.isSpent (ρ id) = s.isSpent id := by
  unfold Store.isSpent
  rw [h.hasStock hρ hs hid, h.any_of_id hρ hid (p := fun r => r.status = .active) fun _ => Iff.rfl]

theorem assignable :
    t.assignable series now = (s.assignable series now).map (FolioRow.rename ρ) := by
  unfold Store.assignable
  rw [h.foliosOf, List.filter_map]
  congr 1
  refine List.filter_congr fun f hf => ?_
  obtain ⟨hf, hseries⟩ := mem_foliosOf.1 hf
  rw [Function.comp_apply, decide_eq_decide]
  show (f.isAvailable = true ∧ t.isLive (ρ f.rangeId) now = true) ↔ _
  rw [h.isLive hρ (hseries ▸ hs.owns_of_folio hf)]

theorem countAvailable : t.countAvailable series now = s.countAvailable series now := by
  unfold Store.countAvailable
  rw [h.assignable hρ hs, List.length_map]

theorem filter_stocked {p : RangeRow → Prop} [DecidablePred p]
    (hp : ∀ r : RangeRow, p (r.rename ρ) ↔ p r) :
    (t.ranges.filter fun r => r.series = series ∧ p r ∧ t.hasStock r.id) =
      (s.ranges.filter fun r => r.series = series ∧ p r ∧ s.hasStock r.id).map
        (RangeRecord.rename ρ) := by
  rw [h.ranges]
  refine filter_part (fun r _ hp => ?_) fun r hr hseries => ?_
  · simp only [decide_eq_true_eq] at hp ⊢
    exact hp.1
  · rw [decide_eq_true_eq] at hseries
    rw [decide_eq_decide]
    show (_ ∧ p (r.rename ρ) ∧ t.hasStock (ρ r.id) = true) ↔ _
    rw [h.hasStock hρ hs (hseries ▸ hs.owns_of_range hr), hp]
    rfl

theorem lapsedRanges : t.lapsedRanges series now =
    (s.lapsedRanges series now).map (RangeRecord.rename ρ) := by
  have hrows := h.filter_stocked hρ hs (p := fun r => hasLapsed r now) fun _ => Iff.rfl
  simp only [Store.lapsedRanges, hrows, List.filter_map, List.map_append]
  rfl

theorem shortage : t.shortage series now = (s.shortage series now).rename ρ := by
  unfold Store.shortage
  rw [h.lapsedRanges hρ hs, latestExpiry_map_rename]
  cases latestExpiry (s.lapsedRanges series now) with
  | none => rfl
  | some r =>
    simp only [Option.map_some, RangeRecord.rename]
    cases hms : Instant.ofMillis r.expiresAt with
    | ok expiredAt => rfl
    | error failure => exact (Instant.nameless_ofMillis ρ _ failure hms).symm

theorem activeRange (now : Instant) : t.activeRange now series =
    renameAnswer ρ (RangeRecord.rename ρ) (s.activeRange now series) := by
  have hrows := h.filter_stocked hρ hs
    (p := fun r => r.status = .active ∧ now.toMillis < r.expiresAt) fun _ => Iff.rfl
  simp only [and_assoc] at hrows
  unfold Store.activeRange
  rw [hrows, latestAuthorization_map_rename]
  cases latestAuthorization (s.ranges.filter _) with
  | none => rfl
  | some r => exact r.toRange_rename ρ

end

/-! ## Changes of the series -/

theorem setFolio (h : IsPart ρ series s t) (number : Nat) (state : FolioState) :
    IsPart ρ series (s.setFolio series number state) (t.setFolio series number state) := by
  refine ⟨h.ranges, ?_⟩
  show t.folios.map _ = _
  rw [h.folios]
  refine (map_part (fun f _ => ?_) fun f _ _ => ?_).symm
  · split <;> rfl
  · by_cases hkey : f.series = series ∧ f.number = number
    · rw [if_pos hkey]
      exact if_pos hkey
    · rw [if_neg hkey]
      exact if_neg hkey

theorem setStatus (h : IsPart ρ series s t) {p q : RangeRow → Bool}
    (hpq : ∀ r ∈ s.ranges, r.series = series → q (r.rename ρ) = p r) (status : RangeStatus) :
    IsPart ρ series (s.setStatus p status) (t.setStatus q status) := by
  refine ⟨?_, h.folios⟩
  show t.ranges.map _ = _
  rw [h.ranges]
  refine (map_part (fun r _ => ?_) fun r hr hseries => ?_).symm
  · split <;> rfl
  · rw [hpq r hr (of_decide_eq_true hseries)]
    split <;> rfl

theorem settle (hρ : Function.Injective ρ) (h : IsPart ρ series s t) (hs : Aligned s)
    (hid : s.Owns series id) : IsPart ρ series (s.settle id) (t.settle (ρ id)) := by
  rw [settle_eq, settle_eq, h.hasStock hρ hs hid]
  refine h.setStatus (fun r _ _ => ?_) _
  rw [decide_eq_decide]
  exact and_congr_left' hρ.eq_iff

theorem append (h : IsPart ρ series s t) {row : RangeRow} {rows : List FolioRow}
    (hrow : row.series = series) (hrows : ∀ f ∈ rows, f.series = series) :
    IsPart ρ series { s with ranges := s.ranges ++ [row], folios := s.folios ++ rows }
      { t with
        ranges := t.ranges ++ [row.rename ρ]
        folios := t.folios ++ rows.map (FolioRow.rename ρ) } := by
  have hall : rows.filter (·.series = series) = rows := by
    rw [List.filter_eq_self]
    intro f hf
    exact decide_eq_true (hrows f hf)
  refine ⟨?_, ?_⟩
  · simp [h.ranges, part, hrow]
  · simp [h.folios, part, Store.foliosOf, hall]

/-! ## Changes of another series -/

section

variable {other : Series} (hother : other ≠ series)
include hother

theorem setFolio_other (h : IsPart ρ series s t) (number : Nat) (state : FolioState) :
    IsPart ρ series (s.setFolio other number state) t := by
  refine ⟨h.ranges, ?_⟩
  rw [h.folios]
  refine congrArg (List.map _) (map_other (fun f _ => ?_) fun f _ hseries => ?_).symm
  · split <;> rfl
  · rw [if_neg]
    rintro ⟨rfl, -⟩
    exact hother (of_decide_eq_true hseries)

theorem settle_other (h : IsPart ρ series s t) (hid : s.Owns other id) :
    IsPart ρ series (s.settle id) t := by
  rw [settle_eq]
  refine ⟨?_, h.folios⟩
  rw [h.ranges]
  refine congrArg (List.map _) (map_other (fun r _ => ?_) fun r hr hseries => ?_).symm
  · split <;> rfl
  · rw [if_neg]
    intro hcond
    obtain rfl := hid r hr (of_decide_eq_true hcond).1
    exact hother (of_decide_eq_true hseries)

theorem append_other (h : IsPart ρ series s t) {row : RangeRow} {rows : List FolioRow}
    (hrow : row.series = other) (hrows : ∀ f ∈ rows, f.series = other) :
    IsPart ρ series { s with ranges := s.ranges ++ [row], folios := s.folios ++ rows } t := by
  have hnone : rows.filter (·.series = series) = [] := by
    rw [List.filter_eq_nil_iff]
    intro f hf
    rw [hrows f hf]
    simpa using hother
  refine ⟨?_, ?_⟩
  · simp [h.ranges, part, hrow, hother]
  · simp [h.folios, part, Store.foliosOf, hnone]

end

end IsPart

end Store

end FolioLedger
