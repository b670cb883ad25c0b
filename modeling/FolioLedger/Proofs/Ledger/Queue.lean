import FolioLedger.Proofs.Ledger.Shortage

/-!
# Callers in turn

More callers than there are folios: they are served one after another while the clock stands still.
Each gets the next folio of the line that stood there at the beginning (`Store.Lineup`), ranges are
exhausted on the way, and whoever comes too late is told the same thing.  That is `ServedInTurn`, for
any number of callers and whatever ranges, gaps and lapsed ranges lie between the numbers
(`Store.served_in_turn`).

A folio says when it was used.  So the clock is one that can be read back; of others this holds only
where nothing is handed out (`Store.servedInTurn_iff`).
-/

namespace FolioLedger

/-- One who asks for a folio, and is told when there is none left: the stock at or below which a new range
is asked for, and the document that the folio is for. -/
structure Caller where
  lowWater : Option Nat
  document : Option String

/-- What a caller gets, what is told besides, and the store afterwards. -/
structure Service where
  answer : Except Failure Assignment
  told : Outbox
  store : Store

namespace Store

/-- Callers served one after another, at one reading of the clock. -/
def queue (now : Instant) (series : Series) : Store → List Caller → List Service
  | _, [] => []
  | s, c :: cs =>
    let (answer, t, told) := Desk.assign ⟨true, c.lowWater⟩ s now series c.document
    ⟨answer, told, t⟩ :: t.queue now series cs

/-- The folios that are offered, in the order of their numbers. -/
structure Lineup (s : Store) (series : Series) (now : Millis) (rows : List FolioRow) : Prop where
  mem_iff : ∀ f, f ∈ rows ↔ s.Offers series now f
  ascending : rows.Pairwise fun f g => f.number < g.number

end Store

/-- A caller gets the folio of a row, and some remain.  Its range is spent exactly if the caller is told
so, and marked as exhausted then. -/
structure Service.Hands (service : Service) (caller : Caller) (row : FolioRow) (remaining : Nat)
    (a : Assignment) : Prop where
  answer : service.answer = .ok a
  series : a.folio.series = row.series
  number : a.folio.number = row.number
  rangeId : a.folio.rangeId = row.rangeId
  status : a.folio.status = .used
  document : a.folio.documentId = caller.document
  remaining : a.remaining = remaining
  spent_iff : a.rangeExhausted = true ↔
    ∀ f ∈ service.store.folios, f.rangeId = row.rangeId → f.state ≠ .available
  marked : ∃ r ∈ service.store.ranges, r.id = row.rangeId ∧
    r.status = if a.rangeExhausted then .exhausted else .active

/-- Each caller gets the next row as long as there is one, the others are refused alike, and the end of
the stock is told once. -/
structure ServedInTurn (series : Series) (rows : List FolioRow) (callers : List Caller)
    (services : List Service) : Prop where
  served : ∀ i row caller, rows[i]? = some row → callers[i]? = some caller →
    ∃ (service : Service) (a : Assignment), services[i]? = some service ∧
      service.Hands caller row (rows.length - (i + 1)) a
  refused : ∃ failure, ∀ i caller, rows.length ≤ i → callers[i]? = some caller →
    ∃ service, services[i]? = some service ∧ service.answer = .error failure
  alerts : services.flatMap (·.told.alerts) =
    if 0 < rows.length ∧ rows.length ≤ callers.length then [.foliosExhausted series] else []

namespace Store

variable {s : Store} {series : Series} {now : Millis} {row : FolioRow} {rows : List FolioRow}

/-! ## What is offered after one was taken -/

/-- Settling marks ranges without folios only. -/
theorem offers_settle {id : String} {f : FolioRow} :
    (s.settle id).Offers series now f ↔ s.Offers series now f := by
  constructor
  · rintro ⟨hmem, hseries, hav, r', hr', hid, hact, hlater⟩
    rw [settle_folios] at hmem
    rw [settle_eq, mem_setStatus] at hr'
    obtain ⟨r, hr, rfl⟩ := hr'
    split at hact
    · cases hact
    next hcond =>
    rw [if_neg hcond] at hid hlater
    exact ⟨hmem, hseries, hav, r, hr, hid, hact, hlater⟩
  · rintro ⟨hmem, hseries, hav, r, hr, hid, hact, hlater⟩
    refine ⟨by rwa [settle_folios], hseries, hav, r, ?_, hid, hact, hlater⟩
    rw [settle_eq, mem_setStatus]
    refine ⟨r, hr, (if_neg fun hcond => ?_).symm⟩
    obtain ⟨hsettled, -, hspent⟩ := of_decide_eq_true hcond
    have hstock : s.hasStock id = true := hasStock_iff.2 ⟨f, hmem, hid.symm.trans hsettled, hav⟩
    rw [hspent] at hstock
    cases hstock

theorem offers_setFolio (h : Aligned s) (hrow : row ∈ s.folios) {st : FolioState}
    (hst : st ≠ .available) {f : FolioRow} :
    (s.setFolio row.series row.number st).Offers series now f ↔
      s.Offers series now f ∧ f ≠ row := by
  constructor
  · rintro ⟨hmem, hseries, hav, hlive⟩
    obtain ⟨hf, hne⟩ := (mem_setFolio_of_available h hrow hst hav).1 hmem
    exact ⟨⟨hf, hseries, hav, hlive⟩, hne⟩
  · rintro ⟨⟨hmem, hseries, hav, hlive⟩, hne⟩
    exact ⟨(mem_setFolio_of_available h hrow hst hav).2 ⟨hmem, hne⟩, hseries, hav, hlive⟩

/-- Taking a folio leaves all others on offer. -/
theorem offers_take (h : Aligned s) (hrow : row ∈ s.folios) {st : FolioState}
    (hst : st ≠ .available) {f : FolioRow} :
    ((s.setFolio row.series row.number st).settle row.rangeId).Offers series now f ↔
      s.Offers series now f ∧ f ≠ row := by
  rw [offers_settle, offers_setFolio h hrow hst]

/-! ## The line -/

namespace Lineup

theorem length_eq (hline : s.Lineup series now rows) (h : Aligned s) :
    rows.length = s.countAvailable series now := by
  have hnodup : rows.Nodup := hline.ascending.imp fun {f g} hlt heq => by
    rw [heq] at hlt
    exact Nat.lt_irrefl _ hlt
  have hperm : rows.Perm (s.assignable series now) := by
    rw [List.perm_ext_iff_of_nodup hnodup (List.Nodup.of_map _ (nodup_assignable h series now))]
    exact fun f => (hline.mem_iff f).trans mem_assignable_iff_offers.symm
  exact hperm.length_eq

/-- The first of the line is the one with the least number. -/
theorem least (hline : s.Lineup series now (row :: rows)) :
    leastNumber (s.assignable series now) = some row := by
  have hmem : row ∈ s.assignable series now :=
    mem_assignable_iff_offers.2 ((hline.mem_iff row).1 List.mem_cons_self)
  obtain ⟨first, hfirst⟩ := exists_least (List.length_pos_of_mem hmem)
  obtain ⟨hin, hle⟩ := leastNumber_eq_some hfirst
  rcases List.mem_cons.1 ((hline.mem_iff first).2 (mem_assignable_iff_offers.1 hin)) with rfl | hlater
  · exact hfirst
  · have := (List.pairwise_cons.1 hline.ascending).1 first hlater
    have := hle row hmem
    omega

/-- Once the first was served, the others are the line. -/
theorem tail (hline : s.Lineup series now (row :: rows)) (h : Aligned s) {st : FolioState}
    (hst : st ≠ .available) :
    ((s.setFolio row.series row.number st).settle row.rangeId).Lineup series now rows := by
  have hrow := ((hline.mem_iff row).1 List.mem_cons_self).mem
  obtain ⟨hfirst, hrest⟩ := List.pairwise_cons.1 hline.ascending
  refine ⟨fun f => ?_, hrest⟩
  rw [offers_take h hrow hst, ← hline.mem_iff, List.mem_cons]
  constructor
  · intro hf
    refine ⟨.inr hf, ?_⟩
    rintro rfl
    exact Nat.lt_irrefl _ (hfirst f hf)
  · rintro ⟨hf, hne⟩
    exact hf.resolve_left hne

end Lineup

theorem exists_lineup (h : Aligned s) (series : Series) (now : Millis) :
    ∃ rows, s.Lineup series now rows := by
  refine ⟨(s.assignable series now).mergeSort (·.number ≤ ·.number), fun f => ?_,
    pairwise_mergeSort_number (nodup_assignable h series now)⟩
  rw [List.mem_mergeSort, mem_assignable_iff_offers]

/-- A range that is settled is marked exactly if it was said to be spent, and then it is. -/
theorem settle_marks {id : String} {r : RangeRow} (hr : r ∈ s.ranges) (hid : r.id = id)
    (hact : r.status = .active) :
    (s.isSpent id = true ↔ ∀ f ∈ (s.settle id).folios, f.rangeId = id → f.state ≠ .available) ∧
      ∃ q ∈ (s.settle id).ranges, q.id = id ∧
        q.status = if s.isSpent id then .exhausted else .active := by
  have hany : s.ranges.any (fun r => r.id = id ∧ r.status = .active) = true :=
    List.any_eq_true.2 ⟨r, hr, decide_eq_true ⟨hid, hact⟩⟩
  have hspent : s.isSpent id = !s.hasStock id := by rw [isSpent, hany, Bool.and_true]
  constructor
  · rw [settle_folios, hspent, Bool.not_eq_true', Bool.eq_false_iff, Ne, hasStock_iff]
    simp
  · rw [settle_eq, hspent]
    refine ⟨_, mem_setStatus.2 ⟨r, hr, rfl⟩, ?_⟩
    cases hstock : s.hasStock id <;> simp [hid, hact]

end Store

/-! ## One caller after another -/

namespace ServedInTurn

variable {series : Series} {row : FolioRow} {rows : List FolioRow} {caller : Caller}
  {callers : List Caller} {service : Service} {services : List Service}

/-- No one has come. -/
theorem nil : ServedInTurn series rows [] [] := by
  refine ⟨nofun, ⟨.noFolioAvailable series, nofun⟩, ?_⟩
  rw [if_neg fun ⟨hpos, hnone⟩ => Nat.not_lt.2 hnone hpos]
  rfl

/-- Nothing is left. -/
theorem of_refused {failure : Failure} (tell : Caller → Service)
    (hanswer : ∀ c, (tell c).answer = .error failure) (hquiet : ∀ c, (tell c).told.alerts = []) :
    ServedInTurn series [] callers (callers.map tell) := by
  refine ⟨nofun, ⟨failure, fun i c _ hc => ⟨tell c, ?_, hanswer c⟩⟩, ?_⟩
  · rw [List.getElem?_map, hc]
    rfl
  · simp [List.flatMap_map, hquiet]

/-- The first of the line is served, and then the others. -/
theorem cons {a : Assignment} (hhead : service.Hands caller row rows.length a)
    (halerts : service.told.alerts = if rows.length = 0 then [.foliosExhausted series] else [])
    (htail : ServedInTurn series rows callers services) :
    ServedInTurn series (row :: rows) (caller :: callers) (service :: services) := by
  obtain ⟨hserved, ⟨failure, hrefused⟩, htold⟩ := htail
  refine ⟨?_, ⟨failure, ?_⟩, ?_⟩
  · rintro (_ | i) row' caller' hrow' hcaller'
    · obtain rfl : row = row' := Option.some.inj hrow'
      obtain rfl : caller = caller' := Option.some.inj hcaller'
      exact ⟨service, a, rfl, by simpa using hhead⟩
    · simpa using hserved i row' caller' hrow' hcaller'
  · rintro (_ | i) caller' hi hcaller'
    · simp at hi
    · exact hrefused i caller' (by simpa using hi) hcaller'
  · rw [List.flatMap_cons, halerts, htold]
    cases rows with
    | nil => simp
    | cons next rows => simp

end ServedInTurn

namespace Store

variable {s : Store} {series : Series} {row : FolioRow} {rows : List FolioRow} {now usedAt : Instant}

/-- The first of the line gets the folio of that row, and leaves the others in line. -/
theorem desk_hands (h : Coherent s) (hline : s.Lineup series now.toMillis (row :: rows))
    (hread : Instant.ofMillis now.toMillis = .ok usedAt) (caller : Caller) :
    ∃ a told t, Desk.assign ⟨true, caller.lowWater⟩ s now series caller.document = (.ok a, t, told) ∧
      Coherent t ∧ t.Lineup series now.toMillis rows ∧
      (told.alerts = if rows.length = 0 then [.foliosExhausted series] else []) ∧
      Service.Hands ⟨.ok a, told, t⟩ caller row rows.length a := by
  obtain ⟨hrow, rfl, -, r, hr, hid, hact, -⟩ := (hline.mem_iff row).1 List.mem_cons_self
  have hused : FolioState.used now.toMillis caller.document ≠ .available := by simp
  have hassign := assign_of_least caller.document hline.least hread
  have hcoherent := h.take hrow hused
  have htail := hline.tail h.toAligned hused
  obtain ⟨taken, htaken⟩ : ∃ taken, taken =
    s.setFolio row.series row.number (.used now.toMillis caller.document) := ⟨_, rfl⟩
  simp only [← htaken] at hassign hcoherent htail
  have hremaining := (htail.length_eq hcoherent.toAligned).symm
  obtain ⟨hspent, hmarked⟩ := settle_marks (s := taken) (htaken ▸ hr) hid hact
  refine ⟨_, _, _, by rw [Desk.assign, hassign], hcoherent, htail, ?_,
    ⟨rfl, rfl, rfl, rfl, rfl, rfl, hremaining, hspent, hmarked⟩⟩
  simp only [Desk.exhaustion, hremaining, and_true]

/-! ## The queue -/

/-- Without stock all callers are told the same, and the store stays. -/
theorem queue_of_none (hnone : s.countAvailable series now.toMillis = 0) (callers : List Caller) :
    s.queue now series callers = callers.map fun c =>
      ⟨.error (s.shortage series now.toMillis),
        ⟨[], Desk.lowStock ⟨true, c.lowWater⟩ s now series⟩, s⟩ := by
  induction callers with
  | nil => rfl
  | cons c cs ih =>
    simp only [queue, Desk.assign, assign_of_none c.document hnone, ih, List.map_cons]

theorem servedInTurn_of_readable (h : Coherent s) (hline : s.Lineup series now.toMillis rows)
    (hread : Instant.ofMillis now.toMillis = .ok usedAt) (callers : List Caller) :
    ServedInTurn series rows callers (s.queue now series callers) := by
  -- Each caller takes one row off the line; when it is empty, the rest of the queue is uniform.
  induction callers generalizing s rows with
  | nil => exact .nil
  | cons c cs ih =>
    cases rows with
    | nil =>
      rw [queue_of_none (hline.length_eq h.toAligned).symm]
      exact .of_refused _ (fun _ => rfl) (fun _ => rfl)
    | cons row rows =>
      obtain ⟨a, told, t, hassign, hcoherent, htail, halerts, hhands⟩ := desk_hands h hline hread c
      simp only [queue, hassign]
      exact .cons hhands halerts (ih hcoherent htail)

/-- Callers are served in turn exactly if nobody comes, nothing is on offer or the clock can be read
back. -/
theorem servedInTurn_iff (h : Coherent s) (hline : s.Lineup series now.toMillis rows)
    (callers : List Caller) : ServedInTurn series rows callers (s.queue now series callers) ↔
      callers = [] ∨ rows = [] ∨ now.Readable := by
  constructor
  · intro hturn
    cases rows with
    | nil => exact .inr (.inl rfl)
    | cons row rows =>
      cases callers with
      | nil => exact .inl rfl
      | cons c cs =>
        refine .inr (.inr ?_)
        obtain ⟨service, a, hservice, hhands⟩ := hturn.served 0 row c rfl rfl
        obtain rfl := Option.some.inj hservice
        have hanswer := hhands.answer
        cases hread : Instant.ofMillis now.toMillis with
        | ok usedAt => exact ⟨usedAt, hread⟩
        | error failure =>
          simp only [assign_of_unreadable c.document hline.least hread] at hanswer
          cases hanswer
  · rintro (rfl | rfl | ⟨usedAt, hread⟩)
    · exact .nil
    · rw [queue_of_none (hline.length_eq h.toAligned).symm]
      exact .of_refused _ (fun _ => rfl) (fun _ => rfl)
    · exact servedInTurn_of_readable h hline hread callers

/-- In every state of a run, at every clock reading that can be read back, callers are served in turn, the
line being the folios on offer. -/
theorem served_in_turn (es : List Event) {now : Instant} (hnow : now.Readable) (series : Series)
    (callers : List Caller) :
    ∃ rows, (empty.run es).Lineup series now.toMillis rows ∧
      rows.length = (empty.run es).countAvailable series now.toMillis ∧
      ServedInTurn series rows callers ((empty.run es).queue now series callers) := by
  have h := run_coherent es
  obtain ⟨rows, hline⟩ := exists_lineup h.toAligned series now.toMillis
  exact ⟨rows, hline, hline.length_eq h.toAligned,
    (servedInTurn_iff h hline callers).2 (.inr (.inr hnow))⟩

/-- Two ranges with a gap between them, a lapsed one, and a folio that was voided. -/
def gapped : List Event :=
  [⟨earlyAt 0, .register 10 none "R1" ⟨⟨"A", "T"⟩, 1, 2, earlyAt 0, earlyAt 50, none, none⟩⟩,
   ⟨earlyAt 0, .register 10 none "R2" ⟨⟨"A", "T"⟩, 3, 4, earlyAt 0, earlyAt 10, none, none⟩⟩,
   ⟨earlyAt 0, .register 10 none "R3" ⟨⟨"A", "T"⟩, 7, 8, earlyAt 0, earlyAt 50, none, none⟩⟩,
   ⟨earlyAt 5, .void ⟨true, none⟩ ⟨"A", "T"⟩ 7 "spoiled"⟩]

/-- Of five callers three get a folio, and the others hear of the range that lapsed. -/
theorem served_in_turn_gapped :
    let callers : List Caller := List.replicate 5 ⟨some 3, none⟩
    let services := (empty.run gapped).queue (earlyAt 20) ⟨"A", "T"⟩ callers
    (∃ rows, (empty.run gapped).Lineup ⟨"A", "T"⟩ (earlyAt 20).toMillis rows ∧
      rows.length = (empty.run gapped).countAvailable ⟨"A", "T"⟩ (earlyAt 20).toMillis ∧
      ServedInTurn ⟨"A", "T"⟩ rows callers services) ∧
    (services.map fun service => service.answer.toOption.map (·.folio.number)) =
      [some 1, some 2, some 8, none, none] ∧
    (services.map fun service => service.answer.toOption.map (·.rangeExhausted)) =
      [some false, some true, some true, none, none] := by
  refine ⟨served_in_turn gapped (by decide) ⟨"A", "T"⟩ _, by decide, by decide⟩

end Store

end FolioLedger
