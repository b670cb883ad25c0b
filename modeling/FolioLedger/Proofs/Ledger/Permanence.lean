import FolioLedger.Proofs.Ledger.Integrity

/-!
# Permanence of the ledger

Rows stay where they are.  `RangeRecord.Kept` and `FolioRow.Kept` say what may become of a row
between two moments of a run: its identity stays, a status changes only away from its first, and
what is recorded with a final status stays as it is.  `Permanent` says it of whole tables and holds
between any two moments (`run_permanent`).  Since a row that was used or voided never becomes
available again, no number is handed out twice, nor after it was voided
(`ledger_permanent_and_no_reuse`).
-/

namespace FolioLedger

open Relation

/-- What may become of a range: it expires or is exhausted once, and is warned about once. -/
structure RangeRecord.Kept (r r' : RangeRow) : Prop where
  rest : r' = { r with status := r'.status, nearExpiryAlertedAt := r'.nearExpiryAlertedAt }
  status : r'.status = r.status ∨ r.status = .active
  alerted : r'.nearExpiryAlertedAt = r.nearExpiryAlertedAt ∨ r.nearExpiryAlertedAt = none

/-- What may become of a folio: it is used or voided once, and bound once if it is used. -/
structure FolioRow.Kept (f f' : FolioRow) : Prop where
  rest : f' = { f with state := f'.state }
  status : f'.state.status = f.state.status ∨ f.state.status = .available
  times : f.state.status ≠ .available →
    f'.state.usedAt = f.state.usedAt ∧ f'.state.voidedAt = f.state.voidedAt ∧
      f'.state.voidReason = f.state.voidReason
  document : f'.state.document = f.state.document ∨
    (f.state.document = none ∧ f'.state.status = .used)

namespace RangeRecord.Kept

@[refl] theorem refl (r : RangeRow) : r.Kept r := ⟨rfl, .inl rfl, .inl rfl⟩

theorem trans {r r' r'' : RangeRow} (h : r.Kept r') (h' : r'.Kept r'') : r.Kept r'' where
  rest := by rw [h'.rest, h.rest]
  status := by
    rcases h'.status with h1 | h1
    · exact h1 ▸ h.status
    · rcases h.status with h2 | h2
      · exact .inr (h2 ▸ h1)
      · exact .inr h2
  alerted := by
    rcases h'.alerted with h1 | h1
    · exact h1 ▸ h.alerted
    · rcases h.alerted with h2 | h2
      · exact .inr (h2 ▸ h1)
      · exact .inr h2

theorem identity {r r' : RangeRow} (h : r.Kept r') : r'.id = r.id ∧ r'.expiresAt = r.expiresAt := by
  rw [h.rest]
  exact ⟨rfl, rfl⟩

theorem expired {r r' : RangeRow} (h : r.Kept r') (hexp : r.status = .expired) :
    r'.status = .expired := by
  rcases h.status with hst | hst
  · exact hst.trans hexp
  · rw [hexp] at hst
    cases hst

theorem of_active {r : RangeRow} (h : r.status = .active) (status : RangeStatus) :
    r.Kept { r with status := status } := ⟨rfl, .inr h, .inl rfl⟩

end RangeRecord.Kept

namespace FolioRow.Kept

@[refl] theorem refl (f : FolioRow) : f.Kept f :=
  ⟨rfl, .inl rfl, fun _ => ⟨rfl, rfl, rfl⟩, .inl rfl⟩

theorem trans {f f' f'' : FolioRow} (h : f.Kept f') (h' : f'.Kept f'') : f.Kept f'' where
  rest := by rw [h'.rest, h.rest]
  status := by
    rcases h'.status with h1 | h1
    · exact h1 ▸ h.status
    · rcases h.status with h2 | h2
      · exact .inr (h2 ▸ h1)
      · exact .inr h2
  times hst := by
    have hst' : f'.state.status ≠ .available := (h.status.resolve_right hst) ▸ hst
    obtain ⟨h1, h2, h3⟩ := h.times hst
    obtain ⟨h1', h2', h3'⟩ := h'.times hst'
    exact ⟨h1'.trans h1, h2'.trans h2, h3'.trans h3⟩
  document := by
    rcases h'.document with h1 | ⟨h1, h2⟩
    · rcases h.document with h3 | ⟨h3, h4⟩
      · exact .inl (h1.trans h3)
      · refine .inr ⟨h3, ?_⟩
        rw [h'.status.resolve_right (fun h => by rw [h4] at h; cases h), h4]
    · rcases h.document with h3 | ⟨h3, -⟩
      · exact .inr ⟨h3 ▸ h1, h2⟩
      · exact .inr ⟨h3, h2⟩

theorem identity {f f' : FolioRow} (h : f.Kept f') :
    f'.series = f.series ∧ f'.number = f.number ∧ f'.rangeId = f.rangeId := by
  rw [h.rest]
  exact ⟨rfl, rfl, rfl⟩

/-- A folio that was used or voided stays so. -/
theorem ne_available {f f' : FolioRow} (h : f.Kept f') (hst : f.state ≠ .available) :
    f'.state ≠ .available := by
  rw [Ne, ← FolioState.status_eq_available] at hst ⊢
  rw [h.status.resolve_right hst]
  exact hst

theorem of_available {f : FolioRow} (h : f.state = .available) (st : FolioState) :
    f.Kept { f with state := st } := by
  have hst := FolioState.status_eq_available.2 h
  refine ⟨rfl, .inr hst, fun hne => absurd hst hne, ?_⟩
  rw [h]
  cases st with
  | used => exact .inr ⟨rfl, rfl⟩
  | available | void => exact .inl rfl

theorem of_unbound {f : FolioRow} {since : Millis} (h : f.state = .used since none)
    (document : String) : f.Kept { f with state := .used since (some document) } := by
  refine ⟨rfl, .inl ?_, fun _ => ?_, .inr ⟨?_, rfl⟩⟩
  · rw [h]; rfl
  · rw [h]; exact ⟨rfl, rfl, rfl⟩
  · rw [h]; rfl

end FolioRow.Kept

namespace Store

/-- Every row of `s` is in its place in `t`, and became what may become of it. -/
structure Permanent (s t : Store) : Prop where
  ranges : ∀ (i : Nat) (r : RangeRow), s.ranges[i]? = some r →
    ∃ r', t.ranges[i]? = some r' ∧ r.Kept r'
  folios : ∀ (i : Nat) (f : FolioRow), s.folios[i]? = some f →
    ∃ f', t.folios[i]? = some f' ∧ f.Kept f'

namespace Permanent

variable {s t u : Store}

@[refl] theorem refl (s : Store) : Permanent s s :=
  ⟨fun _ r h => ⟨r, h, .refl r⟩, fun _ f h => ⟨f, h, .refl f⟩⟩

theorem trans (h : Permanent s t) (h' : Permanent t u) : Permanent s u where
  ranges i r hr := by
    obtain ⟨r', hr', hkept⟩ := h.ranges i r hr
    obtain ⟨r'', hr'', hkept'⟩ := h'.ranges i r' hr'
    exact ⟨r'', hr'', hkept.trans hkept'⟩
  folios i f hf := by
    obtain ⟨f', hf', hkept⟩ := h.folios i f hf
    obtain ⟨f'', hf'', hkept'⟩ := h'.folios i f' hf'
    exact ⟨f'', hf'', hkept.trans hkept'⟩

theorem exists_range (h : Permanent s t) {r : RangeRow} (hr : r ∈ s.ranges) :
    ∃ r' ∈ t.ranges, r.Kept r' := by
  obtain ⟨i, hi⟩ := List.mem_iff_getElem?.1 hr
  obtain ⟨r', hr', hkept⟩ := h.ranges i r hi
  exact ⟨r', List.mem_of_getElem? hr', hkept⟩

theorem exists_folio (h : Permanent s t) {f : FolioRow} (hf : f ∈ s.folios) :
    ∃ f' ∈ t.folios, f.Kept f' := by
  obtain ⟨i, hi⟩ := List.mem_iff_getElem?.1 hf
  obtain ⟨f', hf', hkept⟩ := h.folios i f hi
  exact ⟨f', List.mem_of_getElem? hf', hkept⟩

theorem of_sameLedger (h : SameLedger s t) : Permanent s t := by
  obtain ⟨hr, hf⟩ := h
  exact ⟨fun i r hi => ⟨r, hr ▸ hi, .refl r⟩, fun i f hi => ⟨f, hf ▸ hi, .refl f⟩⟩

theorem of_map {g : RangeRow → RangeRow} {k : FolioRow → FolioRow}
    (hr : t.ranges = s.ranges.map g) (hf : t.folios = s.folios.map k)
    (hg : ∀ r ∈ s.ranges, r.Kept (g r)) (hk : ∀ f ∈ s.folios, f.Kept (k f)) : Permanent s t where
  ranges i r hi := ⟨g r, by rw [hr, List.getElem?_map, hi]; rfl, hg r (List.mem_of_getElem? hi)⟩
  folios i f hi := ⟨k f, by rw [hf, List.getElem?_map, hi]; rfl, hk f (List.mem_of_getElem? hi)⟩

theorem of_append {rs : List RangeRow} {fs : List FolioRow} (hr : t.ranges = s.ranges ++ rs)
    (hf : t.folios = s.folios ++ fs) : Permanent s t where
  ranges i r hi := by
    refine ⟨r, ?_, .refl r⟩
    rw [hr, List.getElem?_append_left (List.getElem?_eq_some_iff.1 hi).1, hi]
  folios i f hi := by
    refine ⟨f, ?_, .refl f⟩
    rw [hf, List.getElem?_append_left (List.getElem?_eq_some_iff.1 hi).1, hi]

theorem setStatus (s : Store) {p : RangeRow → Bool} (hp : ∀ r, p r = true → r.status = .active)
    (status : RangeStatus) : Permanent s (s.setStatus p status) := by
  refine of_map rfl (List.map_id _).symm (fun r _ => ?_) fun f _ => .refl f
  split
  · next h => exact .of_active (hp r h) status
  · exact .refl r

theorem settle (s : Store) (id : String) : Permanent s (s.settle id) := by
  rw [settle_eq]
  exact setStatus s (by simp +contextual) _

/-- Where the tables are aligned, a new state of a row is all that changes. -/
theorem setFolio (h : Aligned s) {row : FolioRow} (hrow : row ∈ s.folios) {st : FolioState}
    (hkept : row.Kept { row with state := st }) :
    Permanent s (s.setFolio row.series row.number st) := by
  refine of_map (List.map_id _).symm rfl (fun r _ => .refl r) fun f hf => ?_
  split
  · next hkey =>
    obtain rfl := h.eq_of_number hf hrow hkey.1 hkey.2
    exact hkept
  · exact .refl f

theorem markNearExpiry (s : Store) (id : String) (now : Instant) :
    Permanent s (s.markNearExpiry id now).2 := by
  refine of_map rfl (List.map_id _).symm (fun r _ => ?_) fun f _ => .refl f
  split
  · next h =>
    simp only [isUnwarned, Bool.and_eq_true, Option.isNone_iff_eq_none] at h
    exact ⟨rfl, .inl rfl, .inr h.2⟩
  · exact .refl r

theorem edit (h : Aligned s) (hedit : Edit s t) : Permanent s t := by
  cases hedit with
  | aside hsame => exact of_sameLedger hsame
  | register now hnew => exact of_append rfl rfl
  | void since reason hrow hav => exact (setFolio h hrow (.of_available hav _)).trans (settle ..)
  | bind document hrow hst => exact setFolio h hrow (.of_unbound hst document)
  | expire now => exact setStatus s (by simp +contextual [isDue]) _
  | warn id now => exact markNearExpiry s id now

theorem handsOut (h : Aligned s) {out : Handout} {document : Option String} {row : FolioRow}
    (hout : s.HandsOut out document row t) : Permanent s t := by
  obtain ⟨hrow, -, hav, -⟩ := mem_assignable.1 hout.mem
  rw [hout.result]
  exact (setFolio h hrow (.of_available hav _)).trans (settle ..)

theorem edits (h : Coherent s) (hedits : ReflTransGen Edit s t) : Permanent s t := by
  induction hedits with
  | refl => exact .refl s
  | tail hedits hedit ih => exact ih.trans (edit (h.edits hedits).toAligned hedit)

theorem after (h : Coherent s) (e : Event) : Permanent s (s.after e) := by
  rcases e.handsOut_or_edits s with ⟨out, document, row, -, -, hout⟩ | ⟨-, hedits⟩
  · exact handsOut h.toAligned hout
  · exact edits h hedits

end Permanent

theorem run_permanent {s : Store} (h : Coherent s) (es : List Event) : Permanent s (s.run es) := by
  induction es generalizing s with
  | nil => exact .refl s
  | cons e es ih => exact (Permanent.after h e).trans (ih (h.after e))

theorem run_permanent_append {s : Store} (h : Coherent s) (es fs : List Event) :
    Permanent (s.run es) (s.run (es ++ fs)) := by
  rw [run_append]
  exact run_permanent (h.run es) fs

/-! ## Numbers that are spent -/

/-- The number was used or voided. -/
def Spent (s : Store) (series : Series) (number : Nat) : Prop :=
  ∃ f ∈ s.folios, f.series = series ∧ f.number = number ∧ f.state ≠ .available

namespace Spent

variable {s t : Store} {series : Series} {number : Nat}

theorem permanent (hspent : s.Spent series number) (h : Permanent s t) :
    t.Spent series number := by
  obtain ⟨f, hf, hseries, hnumber, hst⟩ := hspent
  obtain ⟨f', hf', hkept⟩ := h.exists_folio hf
  obtain ⟨hs, hn, -⟩ := hkept.identity
  exact ⟨f', hf', hs.trans hseries, hn.trans hnumber, hkept.ne_available hst⟩

/-- Taking an available folio spends its number. -/
theorem take {row : FolioRow} (hrow : row ∈ s.folios) {st : FolioState} (hst : st ≠ .available) :
    ((s.setFolio row.series row.number st).settle row.rangeId).Spent row.series row.number := by
  refine ⟨{ row with state := st }, ?_, rfl, rfl, hst⟩
  rw [settle_folios, mem_setFolio]
  exact ⟨row, hrow, by simp⟩

theorem handsOut {out : Handout} {document : Option String} {row : FolioRow}
    (hout : s.HandsOut out document row t) : t.Spent out.folio.series out.folio.number := by
  rw [hout.result, hout.series, hout.number]
  exact take (mem_assignable.1 hout.mem).1 nofun

/-- A number is handed out only while it is not spent. -/
theorem not_handsOut (h : Aligned s) (hspent : s.Spent series number) {out : Handout}
    {document : Option String} {row : FolioRow} (hout : s.HandsOut out document row t) :
    ¬ (out.folio.series = series ∧ out.folio.number = number) := by
  rintro ⟨rfl, rfl⟩
  obtain ⟨f, hf, hseries, hnumber, hst⟩ := hspent
  obtain ⟨hrow, -, hav, -⟩ := mem_assignable.1 hout.mem
  obtain rfl := h.eq_of_number hf hrow (hseries.trans hout.series) (hnumber.trans hout.number)
  exact hst hav

/-- A spent number is never handed out again. -/
theorem not_mem_handouts (h : Coherent s) (hspent : s.Spent series number) (es : List Event) :
    ∀ out ∈ s.handouts es, ¬ (out.folio.series = series ∧ out.folio.number = number) := by
  intro out hmem
  obtain ⟨es₁, e, es₂, document, row, -, -, hout⟩ := exists_handsOut_of_mem hmem
  exact (hspent.permanent (run_permanent h es₁)).not_handsOut (h.run es₁).toAligned hout

end Spent

theorem Coherent.nodup_handouts {s : Store} (h : Coherent s) (es : List Event) :
    ((s.handouts es).map fun out => (out.folio.series, out.folio.number)).Nodup := by
  induction es generalizing s with
  | nil => exact .nil
  | cons e es ih =>
    cases hsome : s.handout? e with
    | none => simpa [handouts, hsome] using ih (h.after e)
    | some out =>
      obtain ⟨-, document, row, hout⟩ := Event.handsOut_of_handout? hsome
      simp only [handouts, hsome, Option.toList_some, List.singleton_append, List.map_cons,
        List.nodup_cons, List.mem_map, Prod.mk.injEq, not_exists, not_and]
      refine ⟨fun later hlater hs hn => ?_, ih (h.after e)⟩
      exact (Spent.handsOut hout).not_mem_handouts (h.after e) es later hlater ⟨hs, hn⟩

theorem Spent.of_void {desk : Desk} {s : Store} {clock : Instant} {series : Series} {number : Nat}
    {reason : String} {folio : Folio} (h : (desk.void s clock series number reason).1 = .ok folio) :
    (s.after ⟨clock, .void desk series number reason⟩).Spent series number := by
  cases hvoid : s.void clock series number reason with
  | ok res =>
    obtain ⟨row, hrow, -, rfl, rfl, hres⟩ := void_eq_ok hvoid
    simp only [after, Desk.void, hvoid]
    rw [hres]
    exact .take hrow (by simp)
  | error failure =>
    simp only [Desk.void, hvoid] at h
    cases h

/-- Between two moments of a run, at whatever clock readings, no row is lost, and each became what
it may become.  No number of a series is handed out twice, nor after it was voided. -/
theorem ledger_permanent_and_no_reuse (es fs : List Event) :
    Permanent (Store.empty.run es) ((Store.empty.run es).run fs) ∧
    ((Store.empty.handouts es).map fun out => (out.folio.series, out.folio.number)).Nodup ∧
    ∀ desk clock series number reason folio,
      (desk.void (Store.empty.run es) clock series number reason).1 = .ok folio →
      ∀ out ∈ ((Store.empty.run es).after ⟨clock, .void desk series number reason⟩).handouts fs,
        ¬ (out.folio.series = series ∧ out.folio.number = number) := by
  have h := run_coherent es
  refine ⟨run_permanent h fs, Coherent.empty.nodup_handouts es, ?_⟩
  intro desk clock series number reason folio hvoid
  exact (Spent.of_void hvoid).not_mem_handouts (h.after _) fs

end Store

end FolioLedger
