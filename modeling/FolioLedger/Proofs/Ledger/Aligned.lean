import FolioLedger.Proofs.Ledger.Edit
import Mathlib.Data.List.Nodup

/-!
# The tables of the ledger agree

`Aligned` speaks of what never changes in a row: the folio table holds, range by range, one row for
each number of the range, of its series and under its id.  Every change of the two tables keeps
it.  What look-ups rely on follows: a series and a number determine a row, an id determines a range,
a folio lies in the bounds of its range, and two ranges of a series have no number in common.
-/

namespace FolioLedger

/-- What stays of a folio when its state changes. -/
def FolioRow.key (f : FolioRow) : Series × Nat × String :=
  (f.series, f.number, f.rangeId)

/-- What the folio table reads of a range. -/
def RangeRecord.frame (r : RangeRow) : String × Series × Nat × Nat :=
  (r.id, r.series, r.first, r.last)

/-- The keys of the folios of a range. -/
def RangeRecord.keys (r : RangeRow) : List (Series × Nat × String) :=
  (List.range' r.first (r.last + 1 - r.first)).map fun n => (r.series, n, r.id)

theorem RangeRecord.mem_keys {r : RangeRow} {series : Series} {n : Nat} {id : String} :
    (series, n, id) ∈ r.keys ↔ series = r.series ∧ id = r.id ∧ r.first ≤ n ∧ n ≤ r.last := by
  simp only [keys, List.mem_map, List.mem_range'_1, Prod.mk.injEq]
  constructor
  · rintro ⟨m, hm, rfl, rfl, rfl⟩
    exact ⟨rfl, rfl, hm.1, by omega⟩
  · rintro ⟨rfl, rfl, hfirst, hlast⟩
    exact ⟨n, ⟨hfirst, by omega⟩, rfl, rfl, rfl⟩

namespace Store

/-- The folio table holds one row for each number of each range. -/
structure Aligned (s : Store) : Prop where
  ids : (s.ranges.map (·.id)).Nodup
  bounds : ∀ r ∈ s.ranges, 1 ≤ r.first ∧ r.first ≤ r.last
  keys : s.folios.map FolioRow.key = s.ranges.flatMap RangeRecord.keys
  numbers : (s.folios.map fun f => (f.series, f.number)).Nodup

namespace Aligned

variable {s t : Store} (h : Aligned s)

include h in
theorem eq_of_number {f g : FolioRow} (hf : f ∈ s.folios) (hg : g ∈ s.folios)
    (hs : f.series = g.series) (hn : f.number = g.number) : f = g :=
  List.inj_on_of_nodup_map h.numbers hf hg (Prod.ext hs hn)

include h in
theorem eq_of_id {r q : RangeRow} (hr : r ∈ s.ranges) (hq : q ∈ s.ranges) (hid : r.id = q.id) :
    r = q :=
  List.inj_on_of_nodup_map h.ids hr hq hid

include h in
/-- Every folio belongs to a range that has its number. -/
theorem exists_range {f : FolioRow} (hf : f ∈ s.folios) :
    ∃ r ∈ s.ranges, r.id = f.rangeId ∧ f.series = r.series ∧ r.first ≤ f.number ∧
      f.number ≤ r.last := by
  have hkey : f.key ∈ s.ranges.flatMap RangeRecord.keys := h.keys ▸ List.mem_map_of_mem hf
  obtain ⟨r, hr, hmem⟩ := List.mem_flatMap.1 hkey
  obtain ⟨hseries, hid, hfirst, hlast⟩ := RangeRecord.mem_keys.1 hmem
  exact ⟨r, hr, hid.symm, hseries, hfirst, hlast⟩

include h in
/-- A range has the series and the numbers of its folios. -/
theorem of_rangeId {f : FolioRow} (hf : f ∈ s.folios) {r : RangeRow} (hr : r ∈ s.ranges)
    (hid : f.rangeId = r.id) : f.series = r.series ∧ r.first ≤ f.number ∧ f.number ≤ r.last := by
  obtain ⟨q, hq, hqid, hfacts⟩ := h.exists_range hf
  obtain rfl := h.eq_of_id hq hr (hqid.trans hid)
  exact hfacts

include h in
theorem exists_folio {r : RangeRow} (hr : r ∈ s.ranges) {n : Nat} (hfirst : r.first ≤ n)
    (hlast : n ≤ r.last) :
    ∃ f ∈ s.folios, f.series = r.series ∧ f.number = n ∧ f.rangeId = r.id := by
  have hkey : (r.series, n, r.id) ∈ s.folios.map FolioRow.key := by
    rw [h.keys]
    exact List.mem_flatMap.2 ⟨r, hr, RangeRecord.mem_keys.2 ⟨rfl, rfl, hfirst, hlast⟩⟩
  obtain ⟨f, hf, hkey⟩ := List.mem_map.1 hkey
  simp only [FolioRow.key, Prod.mk.injEq] at hkey
  exact ⟨f, hf, hkey⟩

include h in
/-- Two ranges of a series have no number in common. -/
theorem apart {r q : RangeRow} (hr : r ∈ s.ranges) (hq : q ∈ s.ranges)
    (hseries : r.series = q.series) (hne : r.id ≠ q.id) : r.last < q.first ∨ q.last < r.first := by
  by_contra hmeet
  have := h.bounds r hr
  have := h.bounds q hq
  -- The greater of the two first numbers would belong to both.
  have hn : ∃ n, r.first ≤ n ∧ n ≤ r.last ∧ q.first ≤ n ∧ n ≤ q.last :=
    ⟨max r.first q.first, by omega, by omega, by omega, by omega⟩
  obtain ⟨n, h1, h2, h3, h4⟩ := hn
  obtain ⟨f, hf, hfs, hfn, hfid⟩ := h.exists_folio hr h1 h2
  obtain ⟨g, hg, hgs, hgn, hgid⟩ := h.exists_folio hq h3 h4
  obtain rfl := h.eq_of_number hf hg (by rw [hfs, hgs, hseries]) (by rw [hfn, hgn])
  exact hne (hfid.symm.trans hgid)

include h in
/-- Only frames and keys matter. -/
theorem of_frames (hr : t.ranges.map RangeRecord.frame = s.ranges.map RangeRecord.frame)
    (hf : t.folios.map FolioRow.key = s.folios.map FolioRow.key) : Aligned t where
  ids := by
    have := congrArg (List.map Prod.fst) hr
    simp only [List.map_map] at this
    exact this ▸ h.ids
  bounds r hmem := by
    have hframe : r.frame ∈ s.ranges.map RangeRecord.frame := hr ▸ List.mem_map_of_mem hmem
    obtain ⟨q, hq, hqr⟩ := List.mem_map.1 hframe
    simp only [RangeRecord.frame, Prod.mk.injEq] at hqr
    obtain ⟨-, -, hfirst, hlast⟩ := hqr
    exact hfirst ▸ hlast ▸ h.bounds q hq
  keys := by
    have hkeys : ∀ l : List RangeRow, l.flatMap RangeRecord.keys =
        (l.map RangeRecord.frame).flatMap fun (id, series, first, last) =>
          (List.range' first (last + 1 - first)).map fun n => (series, n, id) := by
      intro l
      rw [List.flatMap_map]
      rfl
    rw [hf, h.keys, hkeys, hkeys, hr]
  numbers := by
    have := congrArg (List.map fun k : Series × Nat × String => (k.1, k.2.1)) hf
    simp only [List.map_map] at this
    exact this ▸ h.numbers

/-! ## Every edit keeps it -/

theorem empty : Aligned Store.empty := ⟨by simp, by simp, rfl, by simp⟩

theorem of_sameLedger (h : Aligned s) (hsame : SameLedger s t) : Aligned t :=
  h.of_frames (by rw [hsame.ranges]) (by rw [hsame.folios])

theorem setFolio (h : Aligned s) (series : Series) (number : Nat) (st : FolioState) :
    Aligned (s.setFolio series number st) := by
  refine h.of_frames rfl ?_
  simp only [Store.setFolio, List.map_map]
  refine List.map_congr_left fun f _ => ?_
  simp only [Function.comp_apply]
  split <;> rfl

theorem setStatus (h : Aligned s) (p : RangeRow → Bool) (status : RangeStatus) :
    Aligned (s.setStatus p status) := by
  refine h.of_frames ?_ rfl
  simp only [Store.setStatus, List.map_map]
  refine List.map_congr_left fun r _ => ?_
  simp only [Function.comp_apply]
  split <;> rfl

theorem settle (h : Aligned s) (id : String) : Aligned (s.settle id) := by
  rw [settle_eq]
  exact h.setStatus _ _

theorem markNearExpiry (h : Aligned s) (id : String) (now : Instant) :
    Aligned (s.markNearExpiry id now).2 := by
  refine h.of_frames ?_ rfl
  simp only [Store.markNearExpiry, List.map_map]
  refine List.map_congr_left fun r _ => ?_
  simp only [Function.comp_apply]
  split <;> rfl

theorem register (h : Aligned s) {id : String} {new : NewRange} (now : Instant)
    (hnew : s.Admissible id new) :
    Aligned { s with
      ranges := s.ranges ++ [new.toRow id now], folios := s.folios ++ new.folios id } where
  ids := by
    rw [List.map_append, List.nodup_append]
    refine ⟨h.ids, by simp, fun a ha b hb => ?_⟩
    obtain ⟨r, hr, rfl⟩ := List.mem_map.1 ha
    obtain rfl : b = id := by simpa [NewRange.toRow] using hb
    exact hnew.fresh r hr
  bounds r hr := by
    rcases List.mem_append.1 hr with hr | hr
    · exact h.bounds r hr
    · obtain rfl := List.mem_singleton.1 hr
      exact ⟨hnew.first_pos, hnew.first_le_last⟩
  keys := by
    simp [h.keys, NewRange.folios, RangeRecord.keys, FolioRow.key, NewRange.toRow]
  numbers := by
    rw [List.map_append, List.nodup_append]
    refine ⟨h.numbers, ?_, fun a ha b hb => ?_⟩
    · simp only [NewRange.folios, List.map_map]
      refine (List.nodup_range' 1).map fun m n hmn => ?_
      simpa using hmn
    · obtain ⟨f, hf, rfl⟩ := List.mem_map.1 ha
      simp only [NewRange.folios, List.map_map, List.mem_map, List.mem_range'_1] at hb
      obtain ⟨n, hn, rfl⟩ := hb
      intro hkey
      obtain ⟨hseries, hnumber⟩ := Prod.mk.inj hkey
      have := hnew.free f hf hseries
      simp only at hnumber
      omega

end Aligned

/-! ## Free numbers -/

theorem Aligned.obstacle?_eq_none {s : Store} (h : Aligned s) {series : Series} {first last : Nat}
    (hle : first ≤ last)
    (hfree : ∀ f ∈ s.folios, f.series = series → f.number < first ∨ last < f.number) :
    s.obstacle? series first last = none := by
  have hnone : ∀ status, s.overlapping? series first last status = none := by
    intro status
    unfold overlapping?
    rw [List.find?_eq_none]
    intro r hr hmeet
    simp only [decide_eq_true_eq] at hmeet
    obtain ⟨hseries, -, hfirst, hlast⟩ := hmeet
    have := h.bounds r hr
    -- The greater of the two first numbers belongs to both.
    obtain ⟨f, hf, hfs, hfn, -⟩ := h.exists_folio hr (Nat.le_max_left r.first first) (by omega)
    have := hfree f hf (hfs.trans hseries)
    omega
  unfold obstacle?
  rw [hnone, hnone]
  simp only [Option.map_eq_none_iff, leastNumber_eq_none, List.filter_eq_nil_iff]
  intro f hf
  obtain ⟨hf, hseries⟩ := mem_foliosOf.1 hf
  have := hfree f hf hseries
  simp only [decide_eq_true_eq]
  omega

/-- What is looked for among ranges and folios can be told from the folios alone. -/
theorem Aligned.checkNumbers_iff {s : Store} (h : Aligned s) {new : NewRange} (hle : new.first ≤ new.last) :
    s.checkNumbers new = .ok () ↔
      (∀ f ∈ s.folios, f.series = new.series → f.number < new.first ∨ new.last < f.number) ∧
        ∀ f ∈ s.folios, f.series = new.series → f.state ≠ .available → f.number < new.first := by
  refine ⟨checkNumbers_eq_ok, fun ⟨hfree, habove⟩ => ?_⟩
  unfold checkNumbers
  rw [h.obstacle?_eq_none hle hfree]
  cases hmax : s.maxIssued? new.series with
  | none => rfl
  | some issued =>
    obtain ⟨f, hf, rfl⟩ := List.mem_map.1 (greatest_mem hmax)
    obtain ⟨hf, hissued⟩ := List.mem_filter.1 hf
    obtain ⟨hf, hseries⟩ := mem_foliosOf.1 hf
    have := habove f hf hseries (by simpa using hissued)
    exact if_neg (by omega)

/-! ## One row in a new state -/

/-- Where the tables are aligned, setting the state of a row changes that row alone. -/
theorem mem_setFolio_of_aligned {s : Store} (h : Aligned s) {row : FolioRow} (hrow : row ∈ s.folios)
    {st : FolioState} {f : FolioRow} :
    f ∈ (s.setFolio row.series row.number st).folios ↔
      (f ∈ s.folios ∧ f ≠ row) ∨ f = { row with state := st } := by
  rw [mem_setFolio]
  constructor
  · rintro ⟨g, hg, rfl⟩
    split
    · next hkey =>
      obtain rfl := h.eq_of_number hg hrow hkey.1 hkey.2
      exact .inr rfl
    · next hkey => exact .inl ⟨hg, by rintro rfl; exact hkey ⟨rfl, rfl⟩⟩
  · rintro (⟨hf, hne⟩ | rfl)
    · refine ⟨f, hf, ?_⟩
      rw [if_neg fun hkey => hne (h.eq_of_number hf hrow hkey.1 hkey.2)]
    · exact ⟨row, hrow, by simp⟩

/-! ## Rows by number -/

/-- Rows of one series have different numbers. -/
theorem Aligned.nodup_numbers {s : Store} (h : Aligned s) {rows : List FolioRow} {series : Series}
    (hrows : rows.Sublist s.folios) (hseries : ∀ f ∈ rows, f.series = series) :
    (rows.map (·.number)).Nodup := by
  refine List.Nodup.map_on (fun f hf g hg hnumber => ?_) ((List.Nodup.of_map _ h.numbers).sublist hrows)
  exact h.eq_of_number (hrows.subset hf) (hrows.subset hg)
    ((hseries f hf).trans (hseries g hg).symm) hnumber

/-- Sorted by their numbers, which differ, rows ascend strictly. -/
theorem pairwise_mergeSort_number {rows : List FolioRow} (h : (rows.map (·.number)).Nodup) :
    (rows.mergeSort (·.number ≤ ·.number)).Pairwise (·.number < ·.number) := by
  have hnodup := ((List.mergeSort_perm rows (·.number ≤ ·.number)).map (·.number)).nodup_iff.2 h
  have hsorted : (rows.mergeSort (·.number ≤ ·.number)).Pairwise
      fun f g => decide (f.number ≤ g.number) = true := by
    refine List.pairwise_mergeSort (fun f g k => ?_) (fun f g => ?_) rows
    · simpa only [decide_eq_true_eq] using Nat.le_trans
    · simpa only [Bool.or_eq_true, decide_eq_true_eq] using Nat.le_total f.number g.number
  refine (hsorted.and (List.pairwise_map.1 hnodup)).imp fun {f g} ⟨hfg, hne⟩ => ?_
  exact Nat.lt_of_le_of_ne (of_decide_eq_true hfg) hne

theorem nodup_assignable {s : Store} (h : Aligned s) (series : Series) (now : Millis) :
    ((s.assignable series now).map (·.number)).Nodup :=
  h.nodup_numbers (List.filter_sublist.trans List.filter_sublist) fun _ hf =>
    (mem_assignable.1 hf).2.1

end Store

end FolioLedger
