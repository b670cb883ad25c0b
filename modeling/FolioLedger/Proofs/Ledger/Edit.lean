import FolioLedger.Desk
import FolioLedger.Proofs.Ledger.Lookup

/-!
# Edits of the ledger

The ledger of a store is its tables of ranges and folios.  Whatever is asked of a store, the ledger
stays as it is or changes in one of six ways, and each way comes with what was checked before:
`HandsOut` says how a folio is handed out, and `Edit` lists the others.  One lemma for each
operation says which way is its own (`register_edit`, `assign_handsOut`, `void_edit`, `bind_edit`,
`expire_edit`, `markNearExpiry_edit`); what a run does to the ledger is proved from these alone.
-/

namespace FolioLedger

/-- A folio that was handed out, and what the clock of its caller read. -/
structure Handout where
  clock : Instant
  folio : Folio

theorem bind_eq_ok {ε α β : Type} {x : Except ε α} {f : α → Except ε β} {b : β} :
    (x >>= f) = .ok b ↔ ∃ a, x = .ok a ∧ f a = .ok b := by
  cases x <;> simp [bind, Except.bind]

theorem map_eq_ok {ε α β : Type} {x : Except ε α} {f : α → β} {b : β} :
    x.map f = .ok b ↔ ∃ a, x = .ok a ∧ f a = b := by
  cases x <;> simp [Except.map]

theorem throw_bind {ε α β : Type} (e : ε) (f : α → Except ε β) :
    (throw e >>= f) = .error e := rfl

theorem NewRange.check_eq_ok {limit : Nat} {new : NewRange} {u : Unit}
    (h : new.check limit = .ok u) : 1 ≤ new.first ∧ new.first ≤ new.last := by
  unfold check at h
  split at h
  · cases h
  split at h
  · cases h
  split at h
  · cases h
  omega

theorem FolioRow.toFolio_eq_ok {f : FolioRow} {d : Folio} (h : f.toFolio = .ok d) :
    d.series = f.series ∧ d.number = f.number ∧ d.rangeId = f.rangeId := by
  unfold toFolio at h
  obtain ⟨_, -, h⟩ := bind_eq_ok.1 h
  obtain ⟨_, -, h⟩ := bind_eq_ok.1 h
  cases h
  exact ⟨rfl, rfl, rfl⟩

theorem RangeRecord.toRange_eq_ok {r : RangeRow} {d : Range} (h : r.toRange = .ok d) :
    d.id = r.id ∧ d.series = r.series ∧ d.trackingId = r.trackingId ∧
      Instant.ofMillis r.expiresAt = .ok d.expiresAt := by
  unfold toRange at h
  obtain ⟨_, -, h⟩ := bind_eq_ok.1 h
  obtain ⟨expiresAt, hexpires, h⟩ := bind_eq_ok.1 h
  obtain ⟨_, -, h⟩ := bind_eq_ok.1 h
  obtain ⟨_, -, h⟩ := bind_eq_ok.1 h
  cases h
  exact ⟨rfl, rfl, rfl, hexpires⟩

/-- The row can be read back. -/
def RangeRecord.Legible (r : RangeRow) : Prop := ∃ d, r.toRange = .ok d

instance (r : RangeRow) : Decidable r.Legible :=
  match h : r.toRange with
  | .ok d => isTrue ⟨d, h⟩
  | .error failure => isFalse fun ⟨d, hd⟩ => by cases h.symm.trans hd

theorem RangeRecord.legible_iff {r : RangeRow} : r.Legible ↔
    (∃ t, Instant.ofMillis r.authorizedAt = .ok t) ∧ (∃ t, Instant.ofMillis r.expiresAt = .ok t) ∧
      (∃ t, Instant.ofMillis r.registeredAt = .ok t) ∧
      ∃ t, r.nearExpiryAlertedAt.mapM Instant.ofMillis = .ok t := by
  constructor
  · rintro ⟨d, h⟩
    unfold toRange at h
    obtain ⟨t₁, h₁, h⟩ := bind_eq_ok.1 h
    obtain ⟨t₂, h₂, h⟩ := bind_eq_ok.1 h
    obtain ⟨t₃, h₃, h⟩ := bind_eq_ok.1 h
    obtain ⟨t₄, h₄, -⟩ := bind_eq_ok.1 h
    exact ⟨⟨t₁, h₁⟩, ⟨t₂, h₂⟩, ⟨t₃, h₃⟩, t₄, h₄⟩
  · rintro ⟨⟨t₁, h₁⟩, ⟨t₂, h₂⟩, ⟨t₃, h₃⟩, t₄, h₄⟩
    unfold Legible toRange
    rw [h₁, h₂, h₃, h₄]
    exact ⟨_, rfl⟩

theorem RangeRecord.Legible.withStatus {r : RangeRow} (h : r.Legible) (status : RangeStatus) :
    RangeRecord.Legible { r with status } := by
  have hread := legible_iff.1 h
  exact legible_iff.2 hread

namespace Store

/-! ## Handing out -/

/-- From `s` to `t` the folio of `row` is handed out as `h`: no folio that could be handed out has a
lesser number. -/
structure HandsOut (s : Store) (h : Handout) (document : Option String) (row : FolioRow)
    (t : Store) : Prop where
  mem : row ∈ s.assignable row.series h.clock.toMillis
  least : ∀ f ∈ s.assignable row.series h.clock.toMillis, row.number ≤ f.number
  series : h.folio.series = row.series
  number : h.folio.number = row.number
  rangeId : h.folio.rangeId = row.rangeId
  result : t =
    (s.setFolio row.series row.number (.used h.clock.toMillis document)).settle row.rangeId

theorem assign_handsOut {s t : Store} {now : Instant} {series : Series} {document : Option String}
    {a : Assignment} (h : s.assign now series document = .ok (a, t)) :
    ∃ row, s.HandsOut ⟨now, a.folio⟩ document row t := by
  simp only [assign] at h
  split at h
  · next row hrow =>
    obtain ⟨folio, hfolio, h⟩ := bind_eq_ok.1 h
    cases h
    obtain ⟨hmem, hle⟩ := leastNumber_eq_some hrow
    obtain ⟨hseries, hnumber, hid⟩ := FolioRow.toFolio_eq_ok hfolio
    obtain rfl : row.series = series := (mem_assignable.1 hmem).2.1
    exact ⟨row, hmem, hle, hseries, hnumber, hid, rfl⟩
  · cases h

/-! ## The other edits -/

/-- What is checked of a range before it is registered under an id. -/
structure Admissible (s : Store) (id : String) (new : NewRange) : Prop where
  first_pos : 1 ≤ new.first
  first_le_last : new.first ≤ new.last
  fresh : ∀ r ∈ s.ranges, r.id ≠ id
  free : ∀ f ∈ s.folios, f.series = new.series → f.number < new.first ∨ new.last < f.number
  above_issued : ∀ f ∈ s.folios, f.series = new.series → f.state ≠ .available →
    f.number < new.first

/-- At most requests and locks differ. -/
structure SameLedger (s t : Store) : Prop where
  ranges : t.ranges = s.ranges
  folios : t.folios = s.folios

/-- The changes of the ledger by which no folio is handed out. -/
inductive Edit : Store → Store → Prop where
  | aside {s t : Store} (h : SameLedger s t) : Edit s t
  | register {s : Store} {id : String} {new : NewRange} (now : Instant)
      (admissible : s.Admissible id new) :
      Edit s { s with
        ranges := s.ranges ++ [new.toRow id now], folios := s.folios ++ new.folios id }
  | void {s : Store} {row : FolioRow} (since : Millis) (reason : String) (mem : row ∈ s.folios)
      (available : row.state = .available) :
      Edit s ((s.setFolio row.series row.number (.void since reason)).settle row.rangeId)
  | bind {s : Store} {row : FolioRow} {since : Millis} (document : String) (mem : row ∈ s.folios)
      (unbound : row.state = .used since none) :
      Edit s (s.setFolio row.series row.number (.used since (some document)))
  | expire {s : Store} (now : Millis) : Edit s (s.setStatus (isDue · now) .expired)
  | warn {s : Store} (id : String) (now : Instant) : Edit s (s.markNearExpiry id now).2

@[refl] theorem SameLedger.refl (s : Store) : SameLedger s s := ⟨rfl, rfl⟩

theorem SameLedger.trans {s t u : Store} (h : SameLedger s t) (h' : SameLedger t u) :
    SameLedger s u :=
  ⟨h'.ranges.trans h.ranges, h'.folios.trans h.folios⟩

theorem not_between_of_obstacle? {s : Store} {series : Series} {first last : Nat}
    (h : s.obstacle? series first last = none) {f : FolioRow} (hf : f ∈ s.folios)
    (hseries : f.series = series) : f.number < first ∨ last < f.number := by
  unfold obstacle? at h
  split at h
  · cases h
  split at h
  · cases h
  rw [Option.map_eq_none_iff, leastNumber_eq_none, List.filter_eq_nil_iff] at h
  have := h f (mem_foliosOf.2 ⟨hf, hseries⟩)
  simp only [decide_eq_true_eq] at this
  omega

theorem le_maxIssued? {s : Store} {series : Series} {m : Nat} (h : s.maxIssued? series = some m)
    {f : FolioRow} (hf : f ∈ s.folios) (hseries : f.series = series)
    (hst : f.state ≠ .available) : f.number ≤ m := by
  apply le_greatest h
  refine List.mem_map.2 ⟨f, List.mem_filter.2 ⟨mem_foliosOf.2 ⟨hf, hseries⟩, ?_⟩, rfl⟩
  simpa using hst

theorem maxIssued?_eq_none {s : Store} {series : Series} (h : s.maxIssued? series = none)
    {f : FolioRow} (hf : f ∈ s.folios) (hseries : f.series = series) : f.state = .available := by
  unfold maxIssued? at h
  rw [greatest_eq_none, List.map_eq_nil_iff, List.filter_eq_nil_iff] at h
  simpa using h f (mem_foliosOf.2 ⟨hf, hseries⟩)

theorem checkNumbers_eq_ok {s : Store} {new : NewRange} {u : Unit}
    (h : s.checkNumbers new = .ok u) :
    (∀ f ∈ s.folios, f.series = new.series → f.number < new.first ∨ new.last < f.number) ∧
      ∀ f ∈ s.folios, f.series = new.series → f.state ≠ .available → f.number < new.first := by
  unfold checkNumbers at h
  split at h
  · cases h
  next hfree =>
  refine ⟨fun f hf => not_between_of_obstacle? hfree hf, fun f hf hseries hst => ?_⟩
  split at h
  · next issued hm =>
    have := le_maxIssued? hm hf hseries hst
    split at h
    · cases h
    · omega
  · next hm => exact absurd (maxIssued?_eq_none hm hf hseries) hst

/-- The tables take the rows of a range that lasts a millisecond, under an id that no other has, as long
as the medium refuses none of its numbers. -/
theorem checkRows_eq_ok_iff {s : Store} {faulty : Option Nat} {id : String} {new : NewRange} :
    s.checkRows faulty id new = .ok () ↔
      new.authorizedAt.toMillis < new.expiresAt.toMillis ∧ (∀ r ∈ s.ranges, r.id ≠ id) ∧
        ∀ n, faulty = some n → n < new.first ∨ new.last < n := by
  have hmillis : new.authorizedAt.toMillis < new.expiresAt.toMillis ↔
      ¬ new.expiresAt.toMillis ≤ new.authorizedAt.toMillis := Int.not_le.symm
  have hid : (∀ r ∈ s.ranges, r.id ≠ id) ↔ ¬ (s.ranges.any fun r => r.id = id) := by simp
  have hmedium : (∀ n, faulty = some n → n < new.first ∨ new.last < n) ↔
      ¬ (faulty.any fun n => new.first ≤ n ∧ n ≤ new.last) := by
    cases faulty with
    | none => simp
    | some n =>
      simp only [Option.some.injEq, forall_eq', Option.any_some, decide_eq_true_eq]
      omega
  rw [hmillis, hid, hmedium]
  unfold checkRows
  split
  · next hfault => exact iff_of_false nofun fun hall => hall.1 hfault
  split
  · next hfault => exact iff_of_false nofun fun hall => hall.2.1 hfault
  split
  · next hfault => exact iff_of_false nofun fun hall => hall.2.2 hfault
  · next h1 h2 h3 => exact iff_of_true rfl ⟨h1, h2, h3⟩

theorem checkNumber_eq_ok_iff {n : Nat} : checkNumber n = .ok () ↔ n ≤ maxNumber := by
  unfold checkNumber
  split
  · simp [*]
  · simp only [true_iff]
    omega

/-- A registration that succeeds has found the range admissible, and adds its row and its folios. -/
theorem register_eq_ok {s t : Store} {limit : Nat} {faulty : Option Nat} {id : String}
    {now : Instant} {new : NewRange} {range : Range}
    (h : s.register limit faulty id now new = .ok (range, t)) :
    s.Admissible id new ∧ range = new.toRange id now ∧ t = { s with
      ranges := s.ranges ++ [new.toRow id now], folios := s.folios ++ new.folios id } := by
  unfold register at h
  obtain ⟨_, hcheck, h⟩ := bind_eq_ok.1 h
  obtain ⟨_, -, h⟩ := bind_eq_ok.1 h
  obtain ⟨_, -, h⟩ := bind_eq_ok.1 h
  obtain ⟨_, hnumbers, h⟩ := bind_eq_ok.1 h
  obtain ⟨_, hrows, h⟩ := bind_eq_ok.1 h
  cases h
  obtain ⟨hpos, hle⟩ := NewRange.check_eq_ok hcheck
  obtain ⟨hfree, habove⟩ := checkNumbers_eq_ok hnumbers
  exact ⟨⟨hpos, hle, (checkRows_eq_ok_iff.1 hrows).2.1, hfree, habove⟩, rfl, rfl⟩

section

variable {s : Store} {limit : Nat} {faulty : Option Nat} {id : String} {now : Instant} {new : NewRange}
  (hcheck : new.check limit = .ok ()) (hlast : new.last ≤ maxNumber)

include hcheck hlast

/-- What holds up by itself is left to the tables. -/
theorem register_eq_of_check : s.register limit faulty id now new = do
    s.checkNumbers new
    s.checkRows faulty id new
    return (new.toRange id now, { s with
      ranges := s.ranges ++ [new.toRow id now], folios := s.folios ++ new.folios id }) := by
  have hfirst : new.first ≤ maxNumber := Nat.le_trans (NewRange.check_eq_ok hcheck).2 hlast
  unfold register
  rw [hcheck, checkNumber_eq_ok_iff.2 hfirst, checkNumber_eq_ok_iff.2 hlast]
  rfl

theorem register_of_checks (hnumbers : s.checkNumbers new = .ok ())
    (hrows : s.checkRows faulty id new = .ok ()) :
    s.register limit faulty id now new = .ok (new.toRange id now, { s with
      ranges := s.ranges ++ [new.toRow id now], folios := s.folios ++ new.folios id }) := by
  rw [register_eq_of_check hcheck hlast, hnumbers, hrows]
  rfl

end

theorem register_edit {s t : Store} {limit : Nat} {faulty : Option Nat} {id : String}
    {now : Instant} {new : NewRange} {range : Range}
    (h : s.register limit faulty id now new = .ok (range, t)) : Edit s t := by
  obtain ⟨hadm, -, rfl⟩ := register_eq_ok h
  exact .register now hadm

theorem void_eq_ok {s t : Store} {now : Instant} {series : Series} {number : Nat} {reason : String}
    {res : Folio × Nat} (h : s.void now series number reason = .ok (res, t)) :
    ∃ row ∈ s.folios, row.state = .available ∧ row.series = series ∧ row.number = number ∧
      t = (s.setFolio series number (.void now.toMillis reason)).settle row.rangeId := by
  simp only [void, throw_bind] at h
  split at h
  · cases h
  obtain ⟨-, -, h⟩ := bind_eq_ok.1 h
  split at h
  · next row hrow =>
    obtain ⟨hmem, hseries, hnumber⟩ := folio?_eq_some hrow
    split at h
    · cases h
    next hav =>
    obtain ⟨folio, -, h⟩ := bind_eq_ok.1 h
    cases h
    exact ⟨row, hmem, by simpa using hav, hseries, hnumber, rfl⟩
  · cases h

theorem void_edit {s t : Store} {now : Instant} {series : Series} {number : Nat} {reason : String}
    {res : Folio × Nat} (h : s.void now series number reason = .ok (res, t)) : Edit s t := by
  obtain ⟨row, hmem, hst, rfl, rfl, rfl⟩ := void_eq_ok h
  exact .void now.toMillis reason hmem hst

theorem bind_edit {s t : Store} {series : Series} {number : Nat} {document : String} {d : Folio}
    (h : s.bind series number document = .ok (d, t)) : Edit s t := by
  simp only [Store.bind] at h
  obtain ⟨-, -, h⟩ := bind_eq_ok.1 h
  split at h
  · next row hrow =>
    obtain ⟨hmem, rfl, rfl⟩ := folio?_eq_some hrow
    obtain ⟨folio, -, h⟩ := bind_eq_ok.1 h
    split at h
    · next hst =>
      cases h
      exact .bind document hmem hst
    · split at h
      · cases h
        exact .aside (.refl s)
      · cases h
    · cases h
  · cases h

theorem expire_edit {s t : Store} {now : Instant} {expired : List Range}
    (h : s.expire now = .ok (expired, t)) : Edit s t := by
  simp only [expire] at h
  obtain ⟨_, -, h⟩ := bind_eq_ok.1 h
  cases h
  exact .expire now.toMillis

theorem markNearExpiry_edit (s : Store) (id : String) (now : Instant) :
    Edit s (s.markNearExpiry id now).2 := .warn id now

end Store

end FolioLedger
