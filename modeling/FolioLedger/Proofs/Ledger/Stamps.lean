import FolioLedger.Proofs.Ledger.Depletion

/-!
# Times of folios

A folio that was used or voided bears the time at which that happened (`FolioState.changedAt`), and an
available one bears none.  Folios are read back as they are used or voided, before the change is kept.  So
in every state of a run all their times can be read back (`run_stamped`), also those of the leap second at
the end of the calendar, in which no folio can be used or voided.
-/

namespace FolioLedger

open Store

namespace FolioState

/-- When the folio was used or voided. -/
def changedAt : FolioState → Option Millis
  | available => none
  | used since _ | void since _ => some since

theorem changedAt_eq_none {st : FolioState} : st.changedAt = none ↔ st.status = .available := by
  cases st <;> simp [changedAt, status]

end FolioState

namespace FolioRow

/-- The folio can be read back exactly if its time can. -/
theorem exists_toFolio_iff {f : FolioRow} : (∃ d, f.toFolio = .ok d) ↔
    ∀ ms ∈ f.state.changedAt, ∃ t, Instant.ofMillis ms = .ok t := by
  unfold toFolio
  cases f.state with
  | available => exact iff_of_true ⟨_, rfl⟩ nofun
  | used since document | void since reason =>
    simp only [FolioState.usedAt, FolioState.voidedAt, FolioState.changedAt, Option.mapM_some,
      Option.mem_some_iff, forall_eq']
    cases Instant.ofMillis since with
    | ok t => exact iff_of_true ⟨_, rfl⟩ ⟨t, rfl⟩
    | error failure =>
      refine iff_of_false ?_ ?_
      · rintro ⟨d, hd⟩
        cases hd
      · rintro ⟨t, ht⟩
        cases ht

theorem status_of_toFolio {f : FolioRow} {d : Folio} (h : f.toFolio = .ok d) :
    d.status = f.state.status := by
  unfold toFolio at h
  obtain ⟨_, -, h⟩ := bind_eq_ok.1 h
  obtain ⟨_, -, h⟩ := bind_eq_ok.1 h
  cases h
  rfl

end FolioRow

namespace Store

variable {s t : Store} {now : Instant} {series : Series}

theorem changedWithin_iff {f : FolioRow} {start stop : Millis} :
    changedWithin f start stop = true ↔ ∃ ms ∈ f.state.changedAt, start ≤ ms ∧ ms ≤ stop := by
  unfold changedWithin
  cases f.state <;> simp [FolioState.usedAt, FolioState.voidedAt, FolioState.changedAt]

/-- The times of all folios can be read back. -/
def Stamped (s : Store) : Prop :=
  ∀ f ∈ s.folios, ∀ ms ∈ f.state.changedAt, ∃ t, Instant.ofMillis ms = .ok t

namespace Stamped

theorem empty : Store.empty.Stamped := nofun

theorem of_folios (h : s.Stamped) (hfolios : t.folios = s.folios) : t.Stamped := by
  unfold Stamped at h ⊢
  rw [hfolios]
  exact h

theorem of_sameLedger (h : s.Stamped) (hsame : SameLedger s t) : t.Stamped := h.of_folios hsame.folios

theorem setFolio (h : s.Stamped) {state : FolioState}
    (hread : ∀ ms ∈ state.changedAt, ∃ t, Instant.ofMillis ms = .ok t) (series : Series)
    (number : Nat) : (s.setFolio series number state).Stamped := by
  intro f' hf'
  obtain ⟨f, hf, rfl⟩ := mem_setFolio.1 hf'
  split
  · exact hread
  · exact h f hf

theorem settle (h : s.Stamped) (id : String) : (s.settle id).Stamped :=
  h.of_folios (s.settle_folios id)

theorem registers (h : s.Stamped) {id : String} {new : NewRange} (hnew : s.Registers id new now t) :
    t.Stamped := by
  intro f hf
  rw [hnew.folios] at hf
  rcases List.mem_append.1 hf with hold | hadded
  · exact h f hold
  · obtain ⟨n, -, rfl⟩ := List.mem_map.1 hadded
    nofun

theorem assign (h : s.Stamped) {document : Option String} {a : Assignment}
    (hassign : s.assign now series document = .ok (a, t)) : t.Stamped := by
  simp only [Store.assign] at hassign
  split at hassign
  · next row _ =>
    obtain ⟨folio, hfolio, hassign⟩ := bind_eq_ok.1 hassign
    cases hassign
    have hread := FolioRow.exists_toFolio_iff.1 ⟨folio, hfolio⟩
    exact (h.setFolio hread series row.number).settle row.rangeId
  · cases hassign

theorem void (h : s.Stamped) {number : Nat} {reason : String} {res : Folio × Nat}
    (hvoid : s.void now series number reason = .ok (res, t)) : t.Stamped := by
  obtain ⟨row, -, -, -, -, rfl⟩ := void_eq_ok hvoid
  have hread : ∀ ms ∈ (FolioState.void now.toMillis reason).changedAt,
      ∃ t, Instant.ofMillis ms = .ok t := by
    rintro ms ⟨rfl⟩
    exact (voidable_of_void hvoid).1.readable
  exact (h.setFolio hread series number).settle row.rangeId

theorem bind (h : s.Stamped) {number : Nat} {document : String} {d : Folio}
    (hbind : s.bind series number document = .ok (d, t)) : t.Stamped := by
  simp only [Store.bind] at hbind
  obtain ⟨-, -, hbind⟩ := bind_eq_ok.1 hbind
  split at hbind
  · next row hrow =>
    obtain ⟨folio, -, hbind⟩ := bind_eq_ok.1 hbind
    split at hbind
    · next since hst =>
      cases hbind
      have hold := h row (folio?_eq_some hrow).1
      rw [hst] at hold
      have hread : ∀ ms ∈ (FolioState.used since (some document)).changedAt,
          ∃ t, Instant.ofMillis ms = .ok t := hold
      exact h.setFolio hread series number
    · split at hbind
      · cases hbind
        exact h
      · cases hbind
    · cases hbind
  · cases hbind

end Stamped

/-! ## What leaves the folios alone -/

theorem expire_folios {expired : List Range} (h : s.expire now = .ok (expired, t)) :
    t.folios = s.folios := by
  simp only [expire] at h
  obtain ⟨_, -, h⟩ := bind_eq_ok.1 h
  cases h
  rfl

theorem sweep_folios (w : Watch) (s : Store) (now : Instant) :
    (w.sweep s now).2.1.folios = s.folios := by
  have hmoves := w.sweep_moves s now
  generalize (w.sweep s now).2.1 = t at hmoves ⊢
  induction hmoves with
  | refl => rfl
  | tail _ hmove ih =>
    cases hmove with
    | expire h => exact (expire_folios h).trans ih
    | mark => exact ih

/-- Only what is used or voided gets a time, and it is read back before that is kept. -/
theorem Stamped.after (h : s.Stamped) (e : Event) : (s.after e).Stamped := by
  obtain ⟨clock, call⟩ := e
  cases call with
  | assign desk series document =>
    simp only [Store.after, Desk.assign]
    cases hassign : s.assign clock series document with
    | ok res => exact h.assign hassign
    | error failure => exact h
  | void desk series number reason =>
    simp only [Store.after, Desk.void]
    cases hvoid : s.void clock series number reason with
    | ok res => exact h.void hvoid
    | error failure => exact h
  | bind => exact keep_snd_of h fun _ _ hbind => h.bind hbind
  | register => exact keep_snd_of h fun _ _ hregister => h.registers (register_registers hregister)
  | ingest monitor faulty id poll new =>
    rcases poll.register_registers s monitor faulty id clock new with hsame | hregisters
    · exact h.of_folios (congrArg Store.folios hsame)
    · exact h.registers hregisters
  | expire => exact keep_snd_of h fun _ _ hexpire => h.of_folios (expire_folios hexpire)
  | markNearExpiry id moment => exact h.of_folios rfl
  | sweep watch moment => exact h.of_folios (sweep_folios watch s moment)
  | _ => exact h.of_sameLedger (Event.sameLedger rfl)

theorem run_stamped (es : List Event) : (empty.run es).Stamped := by
  induction es using List.reverseRecOn with
  | nil => exact .empty
  | append_singleton es e ih =>
    rw [run_append]
    exact ih.after e

end Store

end FolioLedger
