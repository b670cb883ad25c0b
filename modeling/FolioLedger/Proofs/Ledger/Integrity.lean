import FolioLedger.Proofs.Ledger.Aligned
import FolioLedger.Proofs.Ledger.Run

/-!
# Integrity of the ledger

After every run the states of ranges and folios fit each other: an active range has stock, and an
exhausted one has none (`Coherent`).  `run_integrity` says this together with what the two tables
owe each other, for every run from the empty store, whatever the clocks read and whichever row the
medium refuses.
-/

namespace FolioLedger

open Relation

namespace Store

/-- The tables agree, active ranges have stock and exhausted ones have none. -/
structure Coherent (s : Store) : Prop extends Aligned s where
  stocked : ∀ r ∈ s.ranges, r.status = .active → s.hasStock r.id = true
  spent : ∀ r ∈ s.ranges, r.status = .exhausted → s.hasStock r.id = false

/-- A range keeps its stock as long as the table holds the same available folios. -/
theorem hasStock_congr {s t : Store} {id : String}
    (h : ∀ f, f.rangeId = id → f.state = .available → (f ∈ t.folios ↔ f ∈ s.folios)) :
    t.hasStock id = s.hasStock id := by
  rw [Bool.eq_iff_iff, hasStock_iff, hasStock_iff]
  constructor
  · rintro ⟨f, hf, hid, hst⟩
    exact ⟨f, (h f hid hst).1 hf, hid, hst⟩
  · rintro ⟨f, hf, hid, hst⟩
    exact ⟨f, (h f hid hst).2 hf, hid, hst⟩

section

variable {s : Store} (h : Aligned s) {row : FolioRow} (hrow : row ∈ s.folios) {st : FolioState}
  (hst : st ≠ .available)

include h hrow hst

/-- Taking a folio leaves the other available ones. -/
theorem mem_setFolio_of_available {f : FolioRow} (hav : f.state = .available) :
    f ∈ (s.setFolio row.series row.number st).folios ↔ f ∈ s.folios ∧ f ≠ row := by
  rw [mem_setFolio_of_aligned h hrow]
  refine or_iff_left ?_
  rintro rfl
  exact hst hav

theorem hasStock_setFolio_of_ne {id : String} (hid : id ≠ row.rangeId) :
    (s.setFolio row.series row.number st).hasStock id = s.hasStock id := by
  refine hasStock_congr fun f hfid hav => ?_
  rw [mem_setFolio_of_available h hrow hst hav, and_iff_left_iff_imp]
  rintro - rfl
  exact hid hfid.symm

theorem hasStock_setFolio_of_used (hused : row.state ≠ .available) (id : String) :
    (s.setFolio row.series row.number st).hasStock id = s.hasStock id := by
  refine hasStock_congr fun f _ hav => ?_
  rw [mem_setFolio_of_available h hrow hst hav, and_iff_left_iff_imp]
  rintro - rfl
  exact hused hav

theorem hasStock_of_setFolio {id : String}
    (hstock : (s.setFolio row.series row.number st).hasStock id = true) :
    s.hasStock id = true := by
  rw [hasStock_iff] at hstock ⊢
  obtain ⟨f, hf, hfid, hav⟩ := hstock
  exact ⟨f, ((mem_setFolio_of_available h hrow hst hav).1 hf).1, hfid, hav⟩

end

namespace Coherent

variable {s t : Store}

theorem empty : Coherent Store.empty := ⟨.empty, by simp, by simp⟩

theorem of_sameLedger (h : Coherent s) (hsame : SameLedger s t) : Coherent t := by
  obtain ⟨hr, hf⟩ := hsame
  refine ⟨h.toAligned.of_sameLedger ⟨hr, hf⟩, ?_, ?_⟩
  · simpa only [hasStock, hr, hf] using h.stocked
  · simpa only [hasStock, hr, hf] using h.spent

/-- Settling a range makes good that it may have lost its stock. -/
theorem settle {id : String} (h : Aligned s)
    (stocked : ∀ r ∈ s.ranges, r.id ≠ id → r.status = .active → s.hasStock r.id = true)
    (spent : ∀ r ∈ s.ranges, r.status = .exhausted → s.hasStock r.id = false) :
    Coherent (s.settle id) := by
  have hstock : ∀ id', (s.settle id).hasStock id' = s.hasStock id' := by
    intro id'
    simp only [hasStock, settle_folios]
  refine ⟨h.settle id, ?_, ?_⟩
  · intro r' hr' hact
    rw [settle_eq, mem_setStatus] at hr'
    obtain ⟨r, hr, rfl⟩ := hr'
    rw [hstock]
    split at hact
    · cases hact
    next hcond =>
    rw [if_neg hcond]
    by_cases hid : r.id = id
    · simpa [hid, hact] using hcond
    · exact stocked r hr hid hact
  · intro r' hr' hexh
    rw [settle_eq, mem_setStatus] at hr'
    obtain ⟨r, hr, rfl⟩ := hr'
    rw [hstock]
    split
    · next hcond =>
      simp only [decide_eq_true_eq] at hcond
      rw [hcond.1]
      exact hcond.2.2
    · next hcond =>
      rw [if_neg hcond] at hexh
      exact spent r hr hexh

/-- Taking an available folio out of stock, and settling its range. -/
theorem take (h : Coherent s) {row : FolioRow} (hrow : row ∈ s.folios) {st : FolioState}
    (hst : st ≠ .available) :
    Coherent ((s.setFolio row.series row.number st).settle row.rangeId) := by
  have hal := h.toAligned
  refine settle (hal.setFolio ..) ?_ ?_
  · intro r hr hid hact
    rw [hasStock_setFolio_of_ne hal hrow hst hid]
    exact h.stocked r hr hact
  · intro r hr hexh
    have hnone := h.spent r hr hexh
    rw [Bool.eq_false_iff] at hnone ⊢
    exact fun hsome => hnone (hasStock_of_setFolio hal hrow hst hsome)

theorem bind (h : Coherent s) {row : FolioRow} {since : Millis} (document : String)
    (hrow : row ∈ s.folios) (hst : row.state = .used since none) :
    Coherent (s.setFolio row.series row.number (.used since (some document))) := by
  have hne : FolioState.used since (some document) ≠ .available := by simp
  have hstock := hasStock_setFolio_of_used h.toAligned hrow hne (by simp [hst])
  refine ⟨h.toAligned.setFolio .., ?_, ?_⟩
  · intro r hr hact
    rw [hstock]
    exact h.stocked r hr hact
  · intro r hr hexh
    rw [hstock]
    exact h.spent r hr hexh

theorem register (h : Coherent s) {id : String} {new : NewRange} (now : Instant)
    (hnew : s.Admissible id new) :
    Coherent { s with
      ranges := s.ranges ++ [new.toRow id now], folios := s.folios ++ new.folios id } := by
  refine ⟨h.toAligned.register now hnew, ?_, ?_⟩
  · intro r hr hact
    rw [hasStock_iff]
    rcases List.mem_append.1 hr with hr | hr
    · obtain ⟨f, hf, hfid, hav⟩ := hasStock_iff.1 (h.stocked r hr hact)
      exact ⟨f, List.mem_append_left _ hf, hfid, hav⟩
    · obtain rfl := List.mem_singleton.1 hr
      have := hnew.first_le_last
      refine ⟨⟨new.series, new.first, id, .available⟩, List.mem_append_right _ ?_, rfl, rfl⟩
      exact List.mem_map.2 ⟨new.first, List.mem_range'_1.2 (by omega), rfl⟩
  · intro r hr hexh
    rcases List.mem_append.1 hr with hr | hr
    · rw [← h.spent r hr hexh]
      refine hasStock_congr fun f hfid _ => ?_
      rw [List.mem_append, or_iff_left]
      intro hf
      obtain ⟨n, -, rfl⟩ := List.mem_map.1 hf
      exact hnew.fresh r hr hfid.symm
    · obtain rfl := List.mem_singleton.1 hr
      cases hexh

theorem expire (h : Coherent s) (now : Millis) : Coherent (s.setStatus (isDue · now) .expired) := by
  refine ⟨h.toAligned.setStatus .., ?_, ?_⟩
  · intro r' hr' hact
    obtain ⟨r, hr, rfl⟩ := mem_setStatus.1 hr'
    split at hact
    · cases hact
    next hdue =>
    rw [if_neg hdue]
    exact h.stocked r hr hact
  · intro r' hr' hexh
    obtain ⟨r, hr, rfl⟩ := mem_setStatus.1 hr'
    split at hexh
    · cases hexh
    next hdue =>
    rw [if_neg hdue]
    exact h.spent r hr hexh

theorem markNearExpiry (h : Coherent s) (id : String) (now : Instant) :
    Coherent (s.markNearExpiry id now).2 := by
  have hmem : ∀ r' ∈ (s.markNearExpiry id now).2.ranges,
      ∃ r ∈ s.ranges, r'.id = r.id ∧ r'.status = r.status := by
    intro r' hr'
    obtain ⟨r, hr, rfl⟩ := List.mem_map.1 hr'
    exact ⟨r, hr, by split <;> rfl, by split <;> rfl⟩
  refine ⟨h.toAligned.markNearExpiry .., ?_, ?_⟩
  · intro r' hr' hact
    obtain ⟨r, hr, hid, hstatus⟩ := hmem r' hr'
    exact hid ▸ h.stocked r hr (hstatus ▸ hact)
  · intro r' hr' hexh
    obtain ⟨r, hr, hid, hstatus⟩ := hmem r' hr'
    exact hid ▸ h.spent r hr (hstatus ▸ hexh)

theorem edit (h : Coherent s) (hedit : Edit s t) : Coherent t := by
  cases hedit with
  | aside hsame => exact h.of_sameLedger hsame
  | register now hnew => exact h.register now hnew
  | void since reason hrow => exact h.take hrow nofun
  | bind document hrow hst => exact h.bind document hrow hst
  | expire now => exact h.expire now
  | warn id now => exact h.markNearExpiry id now

theorem handsOut (h : Coherent s) {out : Handout} {document : Option String} {row : FolioRow}
    (hout : s.HandsOut out document row t) : Coherent t := by
  rw [hout.result]
  exact h.take (mem_assignable.1 hout.mem).1 nofun

theorem edits (h : Coherent s) (hedits : ReflTransGen Edit s t) : Coherent t := by
  induction hedits with
  | refl => exact h
  | tail _ hedit ih => exact ih.edit hedit

theorem after (h : Coherent s) (e : Event) : Coherent (s.after e) := by
  rcases e.handsOut_or_edits s with ⟨out, document, row, -, -, hout⟩ | ⟨-, hedits⟩
  · exact h.handsOut hout
  · exact h.edits hedits

theorem run (h : Coherent s) (es : List Event) : Coherent (s.run es) := by
  induction es generalizing s with
  | nil => exact h
  | cons e es ih => exact ih (h.after e)

end Coherent

theorem run_coherent (es : List Event) : Coherent (Store.empty.run es) := Coherent.empty.run es

/-! ## What the columns of a folio say -/

end Store

/-- The times, the document and the reason of a folio fit its status. -/
structure Folio.Consistent (status : FolioStatus) {Time : Type} (usedAt : Option Time)
    (document : Option String) (voidedAt : Option Time) (voidReason : Option String) : Prop where
  usedAt_iff : usedAt.isSome ↔ status = .used
  document_imp : document.isSome → status = .used
  voidedAt_iff : voidedAt.isSome ↔ status = .void
  voidReason_iff : voidReason.isSome ↔ status = .void

theorem FolioState.consistent (st : FolioState) :
    Folio.Consistent st.status st.usedAt st.document st.voidedAt st.voidReason := by
  cases st <;> constructor <;>
    simp [status, usedAt, FolioState.document, voidedAt, voidReason]

theorem isSome_of_mapM {α β : Type} {f : α → Except Failure β} {x : Option α} {y : Option β}
    (h : x.mapM f = .ok y) : y.isSome = x.isSome := by
  cases x with
  | none => cases h; rfl
  | some a =>
    obtain ⟨b, -, h⟩ := bind_eq_ok.1 h
    cases h
    rfl

theorem FolioRow.consistent_of_toFolio {f : FolioRow} {d : Folio} (h : f.toFolio = .ok d) :
    Folio.Consistent d.status d.usedAt d.documentId d.voidedAt d.voidReason := by
  unfold toFolio at h
  obtain ⟨usedAt, hused, h⟩ := bind_eq_ok.1 h
  obtain ⟨voidedAt, hvoided, h⟩ := bind_eq_ok.1 h
  cases h
  obtain ⟨h1, h2, h3, h4⟩ := f.state.consistent
  exact ⟨by rw [isSome_of_mapM hused, h1], h2, by rw [isSome_of_mapM hvoided, h3], h4⟩

namespace Store

/-! ## What look-ups rely on -/

/-- The state of a ledger as every query takes it for granted. -/
structure Integrity (s : Store) : Prop where
  /-- A range has one row for each of its numbers, and none for any other. -/
  one_row : ∀ r ∈ s.ranges, ∀ n,
    (s.folios.filter fun f => f.rangeId = r.id ∧ f.number = n).length =
      if r.first ≤ n ∧ n ≤ r.last then 1 else 0
  /-- Every row is of a range, and the rows of a range are of its series. -/
  owned : ∀ f ∈ s.folios, ∃ r ∈ s.ranges, r.id = f.rangeId
  own_series : ∀ r ∈ s.ranges, ∀ f ∈ s.folios, f.rangeId = r.id → f.series = r.series
  /-- Ranges of one series have no number in common, whatever their status. -/
  apart : s.ranges.Pairwise fun r q =>
    r.series = q.series → ∀ n, ¬ ((r.first ≤ n ∧ n ≤ r.last) ∧ (q.first ≤ n ∧ n ≤ q.last))
  stocked : ∀ r ∈ s.ranges, r.status = .active →
    ∃ f ∈ s.folios, f.rangeId = r.id ∧ f.state.status = .available
  spent : ∀ r ∈ s.ranges, r.status = .exhausted →
    ∀ f ∈ s.folios, f.rangeId = r.id → f.state.status ≠ .available
  /-- The columns of each row fit its status. -/
  consistent : ∀ f ∈ s.folios, Folio.Consistent f.state.status f.state.usedAt f.state.document
    f.state.voidedAt f.state.voidReason
  /-- So do the fields of each document that is read of a row. -/
  consistent_read : ∀ f ∈ s.folios, ∀ d, f.toFolio = .ok d →
    Folio.Consistent d.status d.usedAt d.documentId d.voidedAt d.voidReason

theorem Aligned.one_row {s : Store} (h : Aligned s) {r : RangeRow} (hr : r ∈ s.ranges) (n : Nat) :
    (s.folios.filter fun f => f.rangeId = r.id ∧ f.number = n).length =
      if r.first ≤ n ∧ n ≤ r.last then 1 else 0 := by
  split
  · next hn =>
    obtain ⟨f, hf, hseries, hnumber, hid⟩ := h.exists_folio hr hn.1 hn.2
    have hall : ∀ g ∈ s.folios.filter fun f => f.rangeId = r.id ∧ f.number = n, g = f := by
      intro g hg
      obtain ⟨hg, hcond⟩ := List.mem_filter.1 hg
      simp only [decide_eq_true_eq] at hcond
      have hgs := (h.of_rangeId hg hr hcond.1).1
      exact h.eq_of_number hg hf (hgs.trans hseries.symm) (hcond.2.trans hnumber.symm)
    have hnodup : (s.folios.filter fun f => f.rangeId = r.id ∧ f.number = n).Nodup :=
      (List.Nodup.of_map _ h.numbers).filter _
    have hmem : f ∈ s.folios.filter fun f => f.rangeId = r.id ∧ f.number = n :=
      List.mem_filter.2 ⟨hf, by simp [hid, hnumber]⟩
    rw [List.eq_replicate_of_mem hall] at hnodup hmem ⊢
    rw [List.length_replicate]
    have := List.nodup_replicate.1 hnodup
    have := List.length_pos_of_mem hmem
    simp only [List.length_replicate] at this
    omega
  · next hn =>
    rw [List.length_eq_zero_iff, List.filter_eq_nil_iff]
    intro f hf hcond
    simp only [decide_eq_true_eq] at hcond
    have := (h.of_rangeId hf hr hcond.1).2
    omega

theorem Aligned.pairwise_apart {s : Store} (h : Aligned s) : s.ranges.Pairwise fun r q =>
    r.series = q.series → ∀ n, ¬ ((r.first ≤ n ∧ n ≤ r.last) ∧ (q.first ≤ n ∧ n ≤ q.last)) := by
  refine (List.pairwise_map.1 h.ids).imp_of_mem fun {r q} hr hq hne hseries n hn => ?_
  have := h.apart hr hq hseries hne
  omega

theorem Coherent.integrity {s : Store} (h : Coherent s) : Integrity s := by
  refine ⟨fun r hr => h.one_row hr, fun f hf => ?_, fun r hr f hf hid => (h.of_rangeId hf hr hid).1,
    h.pairwise_apart, fun r hr hact => ?_, fun r hr hexh f hf hid hav => ?_,
    fun f _ => f.state.consistent, fun f _ d => FolioRow.consistent_of_toFolio⟩
  · obtain ⟨r, hr, hid, -⟩ := h.exists_range hf
    exact ⟨r, hr, hid⟩
  · obtain ⟨f, hf, hid, hav⟩ := hasStock_iff.1 (h.stocked r hr hact)
    exact ⟨f, hf, hid, FolioState.status_eq_available.2 hav⟩
  · have hnone := h.spent r hr hexh
    rw [Bool.eq_false_iff, Ne, hasStock_iff] at hnone
    exact hnone ⟨f, hf, hid, FolioState.status_eq_available.1 hav⟩

/-- Whatever is asked of a store that was empty, at whatever clock readings, the ledger keeps its
integrity. -/
theorem run_integrity (es : List Event) : Integrity (Store.empty.run es) :=
  (run_coherent es).integrity

end Store

end FolioLedger
