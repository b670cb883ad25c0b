import FolioLedger.Proofs.Ledger.Admission
import FolioLedger.Proofs.Ledger.Shortage
import FolioLedger.Proofs.Watch.Stock

/-!
# The last folio of a series

An alert says that a series has no folio left, and it should mark the moment at which that came about
(`Desk.MarksLoss`): the operation was carried out, the series had stock before, and it has none now.
Handing out takes a folio from the stock, so there the alert is right whenever it is raised.  But a folio
may be voided that was not in stock, as its range has lapsed (`Store.Voidable`), and then the alert is
raised about a series whose stock was gone before.  `Desk.exhaustion_marks_loss_iff` says that this is the
only way in which it goes wrong.
-/

namespace FolioLedger

open Store

/-! ## Folios that can be voided -/

namespace Store

variable {s : Store} {now : Instant} {series : Series} {number : Nat} {reason : String}

/-- A folio is there and available, a reason is given, and the time can be read back. -/
structure Voidable (s : Store) (now : Instant) (series : Series) (number : Nat) (reason : String) :
    Prop where
  available : ∃ f ∈ s.folios, f.series = series ∧ f.number = number ∧ f.state = .available
  reason : isBlank reason = false
  readable : now.Readable

theorem Aligned.folio?_of_mem (h : Aligned s) {f : FolioRow} (hf : f ∈ s.folios) :
    s.folio? f.series f.number = some f := by
  cases hfound : s.folio? f.series f.number with
  | none =>
    have hnot := List.find?_eq_none.1 hfound f hf
    simp at hnot
  | some g =>
    obtain ⟨hg, hseries, hnumber⟩ := folio?_eq_some hfound
    rw [h.eq_of_number hg hf hseries hnumber]

/-- Folios have numbers that the tables have room for. -/
theorem number_le_maxNumber (es : List Event) {f : FolioRow} (hf : f ∈ (empty.run es).folios) :
    f.number ≤ maxNumber := by
  obtain ⟨r, hr, -, -, -, hle⟩ := (run_coherent es).exists_range hf
  obtain ⟨e, -, limit, -, -, hlast⟩ := exists_checked hr
  exact Nat.le_trans hle hlast

theorem void_of_voidable (h : Aligned s) (hnumber : number ≤ maxNumber)
    (hv : s.Voidable now series number reason) :
    ∃ res t, s.void now series number reason = .ok (res, t) := by
  obtain ⟨f, hf, rfl, rfl, hav⟩ := hv.available
  obtain ⟨since, hread⟩ := hv.readable
  simp only [void, hv.reason, checkNumber_eq_ok_iff.2 hnumber, h.folio?_of_mem hf,
    FolioRow.isAvailable, hav, FolioRow.toFolio, FolioState.usedAt, FolioState.voidedAt,
    Option.mapM_some, Option.mapM_none, hread]
  exact ⟨_, _, rfl⟩

/-- What is voided could be, and the stock that is left is told. -/
theorem voidable_of_void {res : Folio × Nat} {t : Store}
    (h : s.void now series number reason = .ok (res, t)) :
    s.Voidable now series number reason ∧ res.2 = t.countAvailable series now.toMillis := by
  obtain ⟨row, hrow, hav, hseries, hnumber, -⟩ := void_eq_ok h
  simp only [void, throw_bind] at h
  split at h
  · cases h
  next hreason =>
  obtain ⟨-, -, h⟩ := bind_eq_ok.1 h
  split at h
  · split at h
    · cases h
    obtain ⟨folio, hfolio, h⟩ := bind_eq_ok.1 h
    cases h
    refine ⟨⟨⟨row, hrow, hseries, hnumber, hav⟩, by simpa using hreason, ?_⟩, rfl⟩
    -- The folio that is given back names the time.
    unfold FolioRow.toFolio at hfolio
    obtain ⟨_, -, hfolio⟩ := bind_eq_ok.1 hfolio
    obtain ⟨since, hread, -⟩ := bind_eq_ok.1 hfolio
    simp only [FolioState.voidedAt, Option.mapM_some] at hread
    obtain ⟨t, ht, -⟩ := map_eq_ok.1 hread
    exact ⟨t, ht⟩
  · cases h

/-- What is handed out was in stock, and the stock that is left is told. -/
theorem stocked_of_assign {document : Option String} {a : Assignment} {t : Store}
    (h : s.assign now series document = .ok (a, t)) :
    0 < s.countAvailable series now.toMillis ∧
      a.remaining = t.countAvailable series now.toMillis := by
  simp only [assign] at h
  split at h
  · next row hrow =>
    obtain ⟨folio, -, h⟩ := bind_eq_ok.1 h
    cases h
    exact ⟨List.length_pos_of_mem (leastNumber_eq_some hrow).1, rfl⟩
  · cases h

end Store

/-! ## Alerts about the last folio -/

namespace Desk

variable {s : Store} {now : Instant} {series : Series}

/-- The alert about a series is raised exactly if the operation was carried out, the series had stock
before, and it has none now. -/
structure MarksLoss {α : Type} (s : Store) (now : Instant) (series : Series)
    (res : Except Failure α × Store × Outbox) : Prop where
  nothing_else : res.2.2.alerts = [] ∨ res.2.2.alerts = [.foliosExhausted series]
  raised_iff : Alert.foliosExhausted series ∈ res.2.2.alerts ↔ (∃ a, res.1 = .ok a) ∧
    0 < s.countAvailable series now.toMillis ∧ res.2.1.countAvailable series now.toMillis = 0

theorem marksLoss_of_error {α : Type} {failure : Failure} {t : Store} {triggers : List Trigger} :
    MarksLoss s now series (α := α) (.error failure, t, ⟨[], triggers⟩) :=
  ⟨.inl rfl, iff_of_false List.not_mem_nil (by rintro ⟨⟨a, ha⟩, -⟩; cases ha)⟩

theorem mem_exhaustion {lowWater : Option Nat} {remaining : Nat} :
    Alert.foliosExhausted series ∈ exhaustion ⟨true, lowWater⟩ series remaining ↔ remaining = 0 := by
  unfold exhaustion
  split <;> simp_all

theorem exhaustion_eq (d : Desk) (series : Series) (remaining : Nat) :
    d.exhaustion series remaining = [] ∨ d.exhaustion series remaining = [.foliosExhausted series] := by
  unfold exhaustion
  split
  · exact .inr rfl
  · exact .inl rfl

/-- Of an operation that is carried out the alert is right exactly if the series had stock before, as it
has none afterwards if it had none before. -/
theorem marksLoss_iff_of_ok {α : Type} {a : α} {t : Store} {lowWater : Option Nat} {remaining : Nat}
    {triggers : List Trigger} (hremaining : remaining = t.countAvailable series now.toMillis)
    (hshrinks : t.countAvailable series now.toMillis ≤ s.countAvailable series now.toMillis) :
    MarksLoss s now series (.ok a, t, ⟨exhaustion ⟨true, lowWater⟩ series remaining, triggers⟩) ↔
      0 < s.countAvailable series now.toMillis := by
  constructor
  · intro hmarks
    by_contra hnone
    have hraised := hmarks.raised_iff.1 (mem_exhaustion.2 (by omega))
    exact hnone hraised.2.1
  · intro hpos
    refine ⟨exhaustion_eq _ series remaining, ?_⟩
    rw [mem_exhaustion, hremaining]
    exact ⟨fun hzero => ⟨⟨a, rfl⟩, hpos, hzero⟩, fun hloss => hloss.2.2⟩

theorem assign_marksLoss (h : Coherent s) (lowWater : Option Nat) (document : Option String) :
    MarksLoss s now series (assign ⟨true, lowWater⟩ s now series document) := by
  have hnew : ∀ new ∈ Call.registered (.assign ⟨true, lowWater⟩ series document),
      new.series ≠ series := by simp [Call.registered]
  have hshrinks := countAvailable_after_le h (e := ⟨now, _⟩) hnew (Int.le_refl now.toMillis)
  simp only [Store.after] at hshrinks
  unfold assign at hshrinks ⊢
  cases hassign : s.assign now series document with
  | error failure => exact marksLoss_of_error
  | ok res =>
    rw [hassign] at hshrinks
    obtain ⟨hpos, hremaining⟩ := stocked_of_assign hassign
    exact (marksLoss_iff_of_ok hremaining hshrinks).2 hpos

theorem void_marksLoss_iff (h : Coherent s) (hnumbers : ∀ f ∈ s.folios, f.number ≤ maxNumber)
    (lowWater : Option Nat) (number : Nat) (reason : String) :
    MarksLoss s now series (void ⟨true, lowWater⟩ s now series number reason) ↔
      (s.Voidable now series number reason → 0 < s.countAvailable series now.toMillis) := by
  have hnew : ∀ new ∈ Call.registered (.void ⟨true, lowWater⟩ series number reason),
      new.series ≠ series := by simp [Call.registered]
  have hshrinks := countAvailable_after_le h (e := ⟨now, _⟩) hnew (Int.le_refl now.toMillis)
  simp only [Store.after] at hshrinks
  unfold void at hshrinks ⊢
  cases hvoid : s.void now series number reason with
  | error failure =>
    refine iff_of_true marksLoss_of_error fun hv => ?_
    obtain ⟨f, hf, -, hnumber, -⟩ := hv.available
    obtain ⟨res, t, hok⟩ := void_of_voidable h.toAligned (hnumber ▸ hnumbers f hf) hv
    cases hvoid.symm.trans hok
  | ok res =>
    rw [hvoid] at hshrinks
    obtain ⟨hv, hremaining⟩ := voidable_of_void hvoid
    exact (marksLoss_iff_of_ok hremaining hshrinks).trans ⟨fun hpos _ => hpos, fun hpos => hpos hv⟩

/-- In every state of a run, at every clock reading: handing out raises the alert exactly if the last of
the stock goes by it, and never if it fails.  So does voiding, exactly if the folio cannot be voided or
the series had stock before; a folio that is out of stock, as its range has lapsed, can be voided too. -/
theorem exhaustion_marks_loss_iff (es : List Event) (now : Instant) (series : Series)
    (lowWater : Option Nat) (document : Option String) (number : Nat) (reason : String) :
    MarksLoss (empty.run es) now series
        (assign ⟨true, lowWater⟩ (empty.run es) now series document) ∧
    (MarksLoss (empty.run es) now series
        (void ⟨true, lowWater⟩ (empty.run es) now series number reason) ↔
      ((empty.run es).Voidable now series number reason →
        0 < (empty.run es).countAvailable series now.toMillis)) :=
  have h := run_coherent es
  ⟨assign_marksLoss h lowWater document,
    void_marksLoss_iff h (fun _ => number_le_maxNumber es) lowWater number reason⟩

/-- Two folios, which expire together. -/
def twoLeft : List Event :=
  [⟨earlyAt 0, .register 10 none "R1" ⟨⟨"A", "T"⟩, 1, 2, earlyAt 0, earlyAt 10, none, none⟩⟩]

/-- While they last, voiding the one and handing out the other marks the loss of the latter alone. -/
theorem exhaustion_marks_loss_twoLeft :
    let spoiled : Event := ⟨earlyAt 1, .void ⟨true, none⟩ ⟨"A", "T"⟩ 1 "spoiled"⟩
    MarksLoss (empty.run twoLeft) (earlyAt 1) ⟨"A", "T"⟩
      (void ⟨true, none⟩ (empty.run twoLeft) (earlyAt 1) ⟨"A", "T"⟩ 1 "spoiled") ∧
    MarksLoss (empty.run (twoLeft ++ [spoiled])) (earlyAt 1) ⟨"A", "T"⟩
      (assign ⟨true, none⟩ (empty.run (twoLeft ++ [spoiled])) (earlyAt 1) ⟨"A", "T"⟩ none) ∧
    (assign ⟨true, none⟩ (empty.run (twoLeft ++ [spoiled])) (earlyAt 1) ⟨"A", "T"⟩ none).2.2.alerts =
      [.foliosExhausted ⟨"A", "T"⟩] :=
  ⟨(exhaustion_marks_loss_iff twoLeft (earlyAt 1) ⟨"A", "T"⟩ none none 1 "spoiled").2.2
      fun _ => by decide,
    (exhaustion_marks_loss_iff (twoLeft ++ [⟨earlyAt 1, .void ⟨true, none⟩ ⟨"A", "T"⟩ 1 "spoiled"⟩])
      (earlyAt 1) ⟨"A", "T"⟩ none none 1 "spoiled").1,
    by decide⟩

/-- After they have expired nothing is in stock, and the alert is raised when one is voided. -/
theorem void_alerts_out_of_stock :
    (empty.run twoLeft).countAvailable ⟨"A", "T"⟩ (earlyAt 20).toMillis = 0 ∧
    (∃ folio, (void ⟨true, none⟩ (empty.run twoLeft) (earlyAt 20) ⟨"A", "T"⟩ 1 "spoiled").1 =
      .ok folio) ∧
    (void ⟨true, none⟩ (empty.run twoLeft) (earlyAt 20) ⟨"A", "T"⟩ 1 "spoiled").2.2.alerts =
      [.foliosExhausted ⟨"A", "T"⟩] ∧
    ¬ MarksLoss (empty.run twoLeft) (earlyAt 20) ⟨"A", "T"⟩
      (void ⟨true, none⟩ (empty.run twoLeft) (earlyAt 20) ⟨"A", "T"⟩ 1 "spoiled") := by
  have hnone : (empty.run twoLeft).countAvailable ⟨"A", "T"⟩ (earlyAt 20).toMillis = 0 := by decide
  have halerts : (void ⟨true, none⟩ (empty.run twoLeft) (earlyAt 20) ⟨"A", "T"⟩ 1 "spoiled").2.2.alerts =
      [.foliosExhausted ⟨"A", "T"⟩] := by decide
  refine ⟨hnone, ⟨_, rfl⟩, halerts, fun hmarks => ?_⟩
  obtain ⟨-, hpos, -⟩ := hmarks.raised_iff.1 (halerts ▸ List.mem_singleton_self _)
  exact Nat.ne_of_gt hpos hnone

end Desk

end FolioLedger
