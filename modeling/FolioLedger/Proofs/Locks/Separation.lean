import FolioLedger.Proofs.Locks.Rows
import FolioLedger.Proofs.Ledger.Numbering
import FolioLedger.Proofs.Time.Printer

/-!
# Locks of different series

The lock of a series is named by issuer and document type, joined by a colon.  Either may contain a
colon, so two series may share a lock (`Lock.replenishment_inj`).  An event touches the locks of
`Store.lockKeys` and no other (`Store.lock?_after`), and a trigger or a poll is turned away exactly
while the lock of its series is held (`Monitor.prepare_inFlight_iff`, `Monitor.takeUp_busy_iff`).  So
two series leave each other undisturbed exactly if their joined names differ
(`Series.undisturbed_iff`).
-/

namespace FolioLedger

open Relation Store

/-! ## Names of locks -/

/-- Two series that read the same once joined by a colon, which stands in different places. -/
structure Series.ColonMoved (a b : Series) : Prop where
  joined : a.issuer ++ ":" ++ a.docType = b.issuer ++ ":" ++ b.docType
  colons : a.issuer.toList.count ':' ≠ b.issuer.toList.count ':'

theorem Lock.replenishment_eq (series : Series) :
    replenishment series = "replenish:" ++ (series.issuer ++ ":" ++ series.docType) := by
  simp only [replenishment, String.append_assoc]

/-- Two series have one lock if they are the same, or but for the place of the colon. -/
theorem Lock.replenishment_inj {a b : Series} :
    replenishment a = replenishment b ↔ a = b ∨ a.ColonMoved b := by
  rw [replenishment_eq, replenishment_eq, String.append_right_inj]
  constructor
  · intro hjoined
    by_cases hcolons : a.issuer.toList.count ':' = b.issuer.toList.count ':'
    · left
      have hlists : a.issuer.toList ++ ':' :: a.docType.toList =
          b.issuer.toList ++ ':' :: b.docType.toList := by
        simpa using congrArg String.toList hjoined
      obtain ⟨hissuer, hdocType⟩ := append_cons_inj_of_count hlists hcolons
      rw [Series.mk.injEq]
      exact ⟨String.toList_inj.1 hissuer, String.toList_inj.1 hdocType⟩
    · exact .inr ⟨hjoined, hcolons⟩
  · rintro (rfl | h)
    · rfl
    · exact h.joined

namespace Store

variable {s t : Store} {now : Instant} {key : String}

/-! ## Which locks an event touches -/

/-- The locks that an event may touch. -/
def lockKeys (s : Store) (e : Event) : List String :=
  match e.call with
  | .acquire _ _ key => [key]
  | .renew _ lease | .release lease => [lease.key]
  | .prepare _ _ _ series _ => [Lock.replenishment series]
  | .record draft _ => [draft.lease.key]
  | .takeUp _ _ trackingId =>
    match s.getRequest trackingId with
    | .ok request => [Lock.replenishment request.series]
    | .error _ => []
  | .tick _ poll _ | .answered poll _ _ | .accept poll _ | .reject poll _ | .cancel poll =>
    [poll.lease.key]
  | _ => []

/-- A lock is as it was. -/
def SameLock (key : String) (s t : Store) : Prop := t.lock? key = s.lock? key

namespace SameLock

@[refl] theorem refl (key : String) (s : Store) : SameLock key s s := rfl

theorem trans {u : Store} (h : SameLock key s t) (h' : SameLock key t u) : SameLock key s u :=
  Eq.trans h' h

theorem of_locks (h : t.locks = s.locks) : SameLock key s t := by
  unfold SameLock lock?
  rw [h]

theorem acquire (s : Store) (now : Instant) (ttl : Nat) (token : String) {key' : String}
    (hne : key ≠ key') : SameLock key s (s.acquire now ttl token key').2 := by
  unfold SameLock
  rcases s.acquire_cases now ttl token key' with ⟨fencing, -, hres⟩ | ⟨-, hres⟩
  · rw [hres, lock?_putLock, if_neg (Ne.symm hne)]
  · rw [hres]

theorem renew (s : Store) (now : Instant) (ttl : Nat) {lease : Lease} (hne : key ≠ lease.key) :
    SameLock key s (s.renew now ttl lease).2 := by
  unfold SameLock
  rw [lock?_renew]
  refine (Option.map_congr fun r hr => if_neg fun hheld => ?_).trans Option.map_id_apply
  exact hne ((lock?_eq_some hr).2.symm.trans hheld.1)

theorem release (s : Store) {lease : Lease} (hne : key ≠ lease.key) :
    SameLock key s (s.release lease) := by
  unfold SameLock
  rw [lock?_release]
  refine (Option.map_congr fun r hr => if_neg fun hmine => ?_).trans Option.map_id_apply
  exact hne ((lock?_eq_some hr).2.symm.trans hmine.1)

end SameLock

theorem key_of_acquire {ttl : Nat} {token : String} {lease : Lease}
    (h : s.acquire now ttl token key = (.ok lease, t)) : lease.key = key := by
  obtain ⟨-, _, _, -, rfl, -⟩ := acquire_eq_ok h
  rfl

end Store

open Store

variable {key : String} (s : Store)

theorem Monitor.prepare_sameLock (m : Monitor) (now later : Instant) (token : String)
    {series : Series} (threshold : Nat) (hne : key ≠ Lock.replenishment series) :
    SameLock key s (m.prepare s now later token series threshold).2 := by
  have hacquire := SameLock.acquire s now m.lockTtl token hne
  refine prepare_store hacquire fun lease t h => ?_
  rw [h] at hacquire
  exact hacquire.trans (.release t (key_of_acquire h ▸ hne))

theorem Monitor.record_sameLock {draft : Draft} (answer : Except Failure String)
    (hne : key ≠ draft.lease.key) : SameLock key s (Monitor.record s draft answer).2 := by
  unfold Monitor.record
  split
  · exact .release s hne
  · simp only
    split
    · next h =>
      obtain ⟨-, rfl⟩ := recordRequest_eq_ok_iff.1 h
      exact .of_locks rfl
    · exact .release s hne

theorem Monitor.takeUp_sameLock (m : Monitor) (now : Instant) (token trackingId : String)
    (hne : ∀ request, s.getRequest trackingId = .ok request →
      key ≠ Lock.replenishment request.series) :
    SameLock key s (m.takeUp s now token trackingId).2 := by
  unfold Monitor.takeUp
  split
  · exact .refl key s
  · next request hrequest =>
    have hacquire := SameLock.acquire s now m.lockTtl token (hne request hrequest)
    split
    · exact .refl key s
    · split
      · next h => simpa only [h] using hacquire
      · next h => simpa only [h] using hacquire

namespace Poll

variable {p : Poll} (hne : key ≠ p.lease.key)
include hne

theorem tick_sameLock (m : Monitor) (now later : Instant) :
    SameLock key s (p.tick m s now later).2.1 := by
  have hrenew := SameLock.renew s now m.lockTtl hne
  unfold tick
  split
  · next failure t h =>
    rw [h] at hrenew
    exact hrenew.trans (.release t hne)
  · next lease t h =>
    have hkey : key ≠ lease.key := by
      rw [renew_eq_ok h]
      exact hne
    rw [h] at hrenew
    refine hrenew.trans ?_
    simp only
    split
    · split
      · exact .release t hkey
      · next u hresolve => exact (SameLock.of_locks (resolve_locks hresolve)).trans (.release u hkey)
    · exact .refl key t

theorem answered_sameLock (since : Instant) (answer : Except Failure AuthorityStatus) :
    SameLock key s (p.answered s since answer).2.1 := by
  unfold answered
  split
  · split
    · exact .refl key s
    · exact .release s hne
  · exact .refl key s
  · split
    · exact .release s hne
    · next t h => exact (SameLock.of_locks (resolve_locks h)).trans (.release t hne)
  · exact .refl key s

theorem accept_sameLock (now : Instant) (range : Range) :
    SameLock key s (p.accept s now range).2 := by
  unfold accept
  split
  · exact .refl key s
  · next t h =>
    refine (SameLock.of_locks (resolve_locks h)).trans ?_
    split <;> exact .release t hne

theorem reject_sameLock (now : Instant) (failure : Failure) :
    SameLock key s (p.reject s now failure).2.1 := by
  unfold reject
  split
  · exact .release s hne
  · next t h => exact (SameLock.of_locks (resolve_locks h)).trans (.release t hne)

end Poll

/-- An event leaves alone the locks that are not its own. -/
theorem Event.sameLock {e : Event} (h : key ∉ s.lockKeys e) : SameLock key s (s.after e) := by
  obtain ⟨clock, call⟩ := e
  cases call with
  | acquire ttl token key' => exact .acquire s clock ttl token (List.ne_of_not_mem_cons h)
  | renew ttl lease => exact .renew s clock ttl (List.ne_of_not_mem_cons h)
  | release lease => exact .release s (List.ne_of_not_mem_cons h)
  | prepare monitor later token series threshold =>
    exact monitor.prepare_sameLock s clock later token threshold (List.ne_of_not_mem_cons h)
  | record draft answer => exact Monitor.record_sameLock s answer (List.ne_of_not_mem_cons h)
  | takeUp monitor token trackingId =>
    refine monitor.takeUp_sameLock s clock token trackingId fun request hrequest => ?_
    simp only [lockKeys, hrequest] at h
    exact List.ne_of_not_mem_cons h
  | tick monitor poll later =>
    exact poll.tick_sameLock s (List.ne_of_not_mem_cons h) monitor clock later
  | answered poll since answer =>
    exact poll.answered_sameLock s (List.ne_of_not_mem_cons h) since answer
  | ingest monitor faulty id poll new =>
    have hturn : Turn clock [] [] s (poll.register monitor faulty s id clock new).2 :=
      poll.register_turn s monitor faulty id clock new
    exact .of_locks hturn.locks_eq_of_nil
  | accept poll range => exact poll.accept_sameLock s (List.ne_of_not_mem_cons h) clock range
  | reject poll failure => exact poll.reject_sameLock s (List.ne_of_not_mem_cons h) clock failure
  | cancel poll => exact .release s (List.ne_of_not_mem_cons h)
  | _ => exact .of_locks (locks_after_of_nil s rfl)

/-! ## Being turned away -/

theorem Store.SameLock.busy_iff {s t : Store} (h : SameLock key s t) (now : Instant) :
    t.Busy now key ↔ s.Busy now key := by
  unfold Busy
  rw [show t.lock? key = s.lock? key from h]

/-- A lock that is not held is given, or its deadline lies beyond the calendar. -/
theorem Store.acquire_busy_or (now : Instant) (ttl : Nat) (token key : String) :
    (s.Busy now key ∧ s.acquire now ttl token key = (.error (.lockBusy key), s)) ∨
    ¬ s.Busy now key ∧ ((∃ lease t, s.acquire now ttl token key = (.ok lease, t)) ∨
      ∃ ms t, s.acquire now ttl token key = (.error (.storage (.timeOutOfRange ms)), t)) := by
  by_cases hbusy : s.Busy now key
  · exact .inl ⟨hbusy, acquire_of_busy hbusy ttl token⟩
  · obtain ⟨fencing, -, hres⟩ := acquire_of_free hbusy ttl token
    refine .inr ⟨hbusy, ?_⟩
    rw [hres]
    unfold Instant.ofMillis
    split
    · exact .inl ⟨_, _, rfl⟩
    · exact .inr ⟨_, _, rfl⟩

theorem Monitor.prepareLocked_ne_inFlight {m : Monitor} {now : Instant} {series : Series}
    {threshold : Nat} {lease : Lease} :
    m.prepareLocked s now series threshold lease ≠ .ok (.inl .alreadyInFlight) := by
  intro h
  unfold prepareLocked at h
  obtain ⟨pending, -, h⟩ := bind_eq_ok.1 h
  cases pending with
  | some request => cases h
  | none =>
    simp only at h
    split at h
    · cases h
    · obtain ⟨request, -, h⟩ := bind_eq_ok.1 h
      cases h

/-- A trigger is turned away exactly while the lock of its series is held. -/
theorem Monitor.prepare_inFlight_iff (m : Monitor) (now later : Instant) (token : String)
    (series : Series) (threshold : Nat) :
    (m.prepare s now later token series threshold).1 = .done (.ok .alreadyInFlight) ↔
      s.Busy now (Lock.replenishment series) := by
  unfold Monitor.prepare
  rcases s.acquire_busy_or now m.lockTtl token (Lock.replenishment series) with
    ⟨hbusy, hres⟩ | ⟨hfree, ⟨lease, t, hres⟩ | ⟨ms, t, hres⟩⟩
  · simp only [hres, hbusy]
  · simp only [hres, hfree, iff_false]
    intro h
    split at h
    · cases h
    · cases h
    · next houtcome =>
      cases h
      exact Monitor.prepareLocked_ne_inFlight t houtcome
    · cases h
  · simp [hres, hfree]

/-- A poll of an open request is turned away exactly while the lock of its series is held. -/
theorem Monitor.takeUp_busy_iff (m : Monitor) (now : Instant) (token : String)
    {trackingId : String} {request : ReplenishmentRequest}
    (hrequest : s.getRequest trackingId = .ok request) :
    (∃ key, (m.takeUp s now token trackingId).1 = .done (.error (.lockBusy key))) ↔
      ¬ request.status.isFinal ∧ s.Busy now (Lock.replenishment request.series) := by
  unfold Monitor.takeUp
  rw [hrequest]
  by_cases hfinal : request.status.isFinal
  · simp [hfinal]
  · rcases s.acquire_busy_or now m.lockTtl token (Lock.replenishment request.series) with
      ⟨hbusy, hres⟩ | ⟨hfree, ⟨lease, t, hres⟩ | ⟨ms, t, hres⟩⟩
    · simp [hfinal, hres, hbusy]
    · simp [hfinal, hres, hfree]
    · simp [hfinal, hres, hfree]

/-! ## Leaving each other undisturbed -/

/-- Every lock that some events touch is that of a series. -/
def Store.Tends (series : Series) : Store → List Event → Prop
  | _, [] => True
  | s, e :: es => (∀ key ∈ s.lockKeys e, key = Lock.replenishment series) ∧ Tends series (s.after e) es

theorem Store.Tends.sameLock {s : Store} {series : Series} {es : List Event}
    (h : Tends series s es) (hne : key ≠ Lock.replenishment series) : SameLock key s (s.run es) := by
  induction es generalizing s with
  | nil => exact .refl key s
  | cons e es ih =>
    have hstep : SameLock key s (s.after e) := e.sameLock s fun hkey => hne (h.1 key hkey)
    exact hstep.trans (ih h.2)

/-- From every state that a run comes to, whether a trigger or a poll of the one series is turned
away does not depend on what is done for the other. -/
structure Series.Undisturbed (a b : Series) : Prop where
  trigger : ∀ es fs, Tends b (empty.run es) fs → ∀ (m : Monitor) now later token threshold,
    (m.prepare ((empty.run es).run fs) now later token a threshold).1 =
        .done (.ok .alreadyInFlight) ↔
      (m.prepare (empty.run es) now later token a threshold).1 = .done (.ok .alreadyInFlight)
  poll : ∀ es fs, Tends b (empty.run es) fs → ∀ trackingId request,
    (empty.run es).getRequest trackingId = .ok request → request.series = a →
    ((empty.run es).run fs).getRequest trackingId = .ok request → ∀ (m : Monitor) now token,
    (∃ key, (m.takeUp ((empty.run es).run fs) now token trackingId).1 =
        .done (.error (.lockBusy key))) ↔
      ∃ key, (m.takeUp (empty.run es) now token trackingId).1 = .done (.error (.lockBusy key))

theorem Series.undisturbed_of_ne {a b : Series} (h : Lock.replenishment a ≠ Lock.replenishment b) :
    a.Undisturbed b where
  trigger es fs htends m now later token threshold := by
    rw [Monitor.prepare_inFlight_iff, Monitor.prepare_inFlight_iff]
    exact (htends.sameLock h).busy_iff now
  poll es fs htends trackingId request hrequest hseries hlater m now token := by
    rw [Monitor.takeUp_busy_iff _ m now token hlater, Monitor.takeUp_busy_iff _ m now token hrequest,
      hseries, (htends.sameLock h).busy_iff now]

/-- Whoever takes a lock for one series turns away the triggers of all that share it. -/
theorem Series.not_undisturbed_of_eq {a b : Series}
    (h : Lock.replenishment a = Lock.replenishment b) : ¬ a.Undisturbed b := by
  intro hundisturbed
  let taken : Event := ⟨earlyAt 2, .acquire 900000 "taken" (Lock.replenishment b)⟩
  have htends : Tends b (empty.run []) [taken] := ⟨fun key hkey => List.mem_singleton.1 hkey, trivial⟩
  have hsame := hundisturbed.trigger [] [taken] htends ⟨5, 10, 900000, 60⟩ (earlyAt 2)
    (earlyAt 2) "late" 0
  rw [Monitor.prepare_inFlight_iff, Monitor.prepare_inFlight_iff, h] at hsame
  have hbusy : ((empty.run []).run [taken]).Busy (earlyAt 2) (Lock.replenishment b) := by
    have hrow : ((empty.run []).run [taken]).lock? (Lock.replenishment b) =
        some ⟨Lock.replenishment b, "taken", 1, Lock.deadline (earlyAt 2).toMillis 900000⟩ := by
      show (empty.putLock ⟨Lock.replenishment b, "taken", 1, _⟩).lock? (Lock.replenishment b) = _
      rw [lock?_putLock, if_pos rfl]
      rfl
    have hlive : Lock.isExpired (Lock.deadline (earlyAt 2).toMillis 900000) (earlyAt 2).toMillis =
        false := by decide
    exact ⟨_, hrow, hlive⟩
  obtain ⟨row, hrow, -⟩ := hsame.1 hbusy
  cases hrow

/-- Two series leave each other's triggers and polls undisturbed exactly if their names do not read the
same once they are joined by a colon. -/
theorem Series.undisturbed_iff (a b : Series) :
    (Lock.replenishment a = Lock.replenishment b ↔ a = b ∨ a.ColonMoved b) ∧
      (a.Undisturbed b ↔ a ≠ b ∧ ¬ a.ColonMoved b) := by
  refine ⟨Lock.replenishment_inj, ?_⟩
  rw [← not_or, ← Lock.replenishment_inj]
  constructor
  · intro hundisturbed hsame
    exact not_undisturbed_of_eq hsame hundisturbed
  · exact undisturbed_of_ne

/-! ## A lock that two series share -/

/-- A range of one series, and a trigger of another one whose request the authority takes. -/
def neighbours : List Event :=
  [⟨earlyAt 2, .register 10 none "R1" ⟨⟨"A", "B:C"⟩, 1, 5, earlyAt 0, earlyAt 50, none, none⟩⟩,
   ⟨earlyAt 2, .prepare ⟨5, 10, 900000, 60⟩ (earlyAt 2) "L1" ⟨"A:B", "C"⟩ 1⟩,
   ⟨earlyAt 2, .record ⟨⟨⟨"A:B", "C"⟩, 1, 5⟩, earlyAt 2, ⟨"replenish:A:B:C", "L1", 1, earlyAt 902⟩⟩
     (.ok "trk-1")⟩]

/-- The trigger of the one series turns away that of the other. -/
theorem trigger_of_other_series :
    Lock.replenishment ⟨"A:B", "C"⟩ = Lock.replenishment ⟨"A", "B:C"⟩ ∧
      ((⟨5, 10, 900000, 60⟩ : Monitor).prepare (empty.run (neighbours.take 1)) (earlyAt 2)
        (earlyAt 2) "L2" ⟨"A", "B:C"⟩ 1).1 = .done (.ok (.aboveThreshold 5)) ∧
      ((⟨5, 10, 900000, 60⟩ : Monitor).prepare (empty.run neighbours) (earlyAt 2) (earlyAt 2)
        "L2" ⟨"A", "B:C"⟩ 1).1 = .done (.ok .alreadyInFlight) := by
  refine ⟨by decide, ?_, ?_⟩ <;> rfl

end FolioLedger
