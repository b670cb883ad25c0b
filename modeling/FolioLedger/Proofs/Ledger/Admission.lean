import FolioLedger.Proofs.Ledger.Atomicity
import FolioLedger.Proofs.Ledger.Deeds
import FolioLedger.Proofs.Ledger.Numbering
import Mathlib.Order.Bounds.Basic

/-!
# Which ranges are admitted

A new range is compared with the ranges of its series by their bounds, if they are active or expired,
and otherwise with their folios.  In every state of a run the two together find every number that is
taken, and only those (`Store.Aligned.obstacle?_eq_none_iff`), so a range is refused as overlapping,
refused as passed or registered by what its numbers are, and nothing else in the tables stands in its
way (`Store.register_admits_exactly`).

The tables themselves would refuse a second row of a number.  They are never asked to: registered
statement by statement, every row of an admitted range goes in.  And what was checked of a range holds
of its row from then on (`Store.exists_checked`).
-/

namespace FolioLedger

/-- The most numbers of a range that a call may register. -/
def Call.limit? : Call → Option Nat
  | .register limit .. => some limit
  | .ingest monitor .. => some monitor.maxRangeSize
  | _ => none

namespace Store

/-- Some number of the new range has a folio of its series, whatever became of it. -/
def Taken (s : Store) (new : NewRange) : Prop :=
  ∃ f ∈ s.folios, f.series = new.series ∧ new.first ≤ f.number ∧ f.number ≤ new.last

/-- The new range starts at or below the highest number that its series has used or voided. -/
def Passed (s : Store) (new : NewRange) : Prop :=
  ∃ issued, IsGreatest {n | ∃ f ∈ s.folios, f.series = new.series ∧
    (f.state.status = .used ∨ f.state.status = .void) ∧ f.number = n} issued ∧ new.first ≤ issued

/-- A range is refused for numbers that are taken, and then for numbers that are passed; any other is
registered unless the medium fails. -/
structure AdmitsExactly (s : Store) (limit : Nat) (faulty : Option Nat) (id : String) (now : Instant)
    (new : NewRange) : Prop where
  overlap_iff : (∃ series first last existing, s.register limit faulty id now new =
    .error (.rangeOverlap series first last existing)) ↔ s.Taken new
  named : ∀ series first last existing, s.register limit faulty id now new =
      .error (.rangeOverlap series first last existing) →
    series = new.series ∧ first = new.first ∧ last = new.last ∧
      ∃ r ∈ s.ranges, r.id = existing ∧ r.series = new.series ∧ r.first ≤ new.last ∧ new.first ≤ r.last
  invalid_iff : ¬ s.Taken new →
    ((∃ fault, s.register limit faulty id now new = .error (.invalidRange fault)) ↔ s.Passed new)
  registered : ¬ s.Taken new → ¬ s.Passed new → new.authorizedAt.toMillis < new.expiresAt.toMillis →
    (∀ r ∈ s.ranges, r.id ≠ id) → (∀ n, faulty = some n → n < new.first ∨ new.last < n) →
    ∃ t, s.register limit faulty id now new = .ok (new.toRange id now, t) ∧
      (∀ o, (Session.register limit faulty id now new).run ⟨s, o⟩ = (.ok (new.toRange id now), ⟨t, o⟩)) ∧
      t = { s with ranges := s.ranges ++ [new.toRow id now], folios := s.folios ++ new.folios id } ∧
      (new.toRow id now).status = .active ∧ (new.folios id).length = new.last - new.first + 1 ∧
      ∀ f ∈ new.folios id, f.series = new.series ∧ f.rangeId = id ∧ f.state = .available

/-! ## Numbers that are taken -/

variable {s : Store} {limit : Nat} {faulty : Option Nat} {id : String} {now : Instant} {new : NewRange}

theorem overlapping?_eq_some {series : Series} {first last : Nat} {status : RangeStatus} {r : RangeRow}
    (h : s.overlapping? series first last status = some r) :
    r ∈ s.ranges ∧ r.series = series ∧ r.first ≤ last ∧ first ≤ r.last := by
  have hr := List.find?_some h
  simp only [decide_eq_true_eq] at hr
  exact ⟨List.mem_of_find?_eq_some h, hr.1, hr.2.2⟩

namespace Aligned

variable (h : Aligned s)

include h in
/-- What stands in the way is a range of the series that shares a number. -/
theorem exists_of_obstacle? {series : Series} {first last : Nat} {existing : String}
    (hobstacle : s.obstacle? series first last = some existing) :
    ∃ r ∈ s.ranges, r.id = existing ∧ r.series = series ∧ r.first ≤ last ∧ first ≤ r.last := by
  unfold obstacle? at hobstacle
  split at hobstacle
  · next r hactive =>
    obtain ⟨hr, hmeets⟩ := overlapping?_eq_some hactive
    exact ⟨r, hr, Option.some.inj hobstacle, hmeets⟩
  split at hobstacle
  · next r hexpired =>
    obtain ⟨hr, hmeets⟩ := overlapping?_eq_some hexpired
    exact ⟨r, hr, Option.some.inj hobstacle, hmeets⟩
  · obtain ⟨f, hleast, rfl⟩ := Option.map_eq_some_iff.1 hobstacle
    obtain ⟨hf, hcond⟩ := List.mem_filter.1 (leastNumber_eq_some hleast).1
    obtain ⟨hf, hseries⟩ := mem_foliosOf.1 hf
    obtain ⟨hfirst, hlast⟩ := of_decide_eq_true hcond
    -- The owner of a folio has the number of the folio.
    obtain ⟨r, hr, hid, hrs, hrfirst, hrlast⟩ := h.exists_range hf
    exact ⟨r, hr, hid, hrs.symm.trans hseries, Nat.le_trans hrfirst hlast,
      Nat.le_trans hfirst hrlast⟩

include h in
theorem obstacle?_eq_none_iff (hle : new.first ≤ new.last) :
    s.obstacle? new.series new.first new.last = none ↔ ¬ s.Taken new := by
  constructor
  · rintro hnone ⟨f, hf, hseries, hfirst, hlast⟩
    have := not_between_of_obstacle? hnone hf hseries
    omega
  · intro hfree
    refine h.obstacle?_eq_none hle fun f hf hseries => ?_
    by_contra hbetween
    exact hfree ⟨f, hf, hseries, by omega, by omega⟩

include h in
/-- A range stands in the way of its own bounds, whatever its status is. -/
theorem obstacle?_of_range {r : RangeRow} (hr : r ∈ s.ranges) :
    s.obstacle? r.series r.first r.last = some r.id := by
  obtain ⟨f, hf, hseries, hnumber, -⟩ := h.exists_folio hr (Nat.le_refl r.first) (h.bounds r hr).2
  cases hobstacle : s.obstacle? r.series r.first r.last with
  | none =>
    have := not_between_of_obstacle? hobstacle hf hseries
    have := h.bounds r hr
    omega
  | some existing =>
    obtain ⟨q, hq, rfl, hqs, hqfirst, hqlast⟩ := h.exists_of_obstacle? hobstacle
    by_contra hne
    have := h.apart hq hr hqs fun hid => hne (congrArg some hid)
    omega

end Aligned

/-! ## What was checked of the ranges that are there -/

theorem register_checked {range : Range} {t : Store}
    (h : s.register limit faulty id now new = .ok (range, t)) :
    new.check limit = .ok () ∧ new.last ≤ maxNumber := by
  unfold register at h
  obtain ⟨_, hcheck, h⟩ := bind_eq_ok.1 h
  obtain ⟨_, -, h⟩ := bind_eq_ok.1 h
  obtain ⟨_, hlast, -⟩ := bind_eq_ok.1 h
  exact ⟨hcheck, checkNumber_eq_ok_iff.1 hlast⟩

theorem Registers.ne {t : Store} (h : s.Registers id new now t) : t ≠ s := by
  rintro rfl
  simpa using h.ranges

/-- What an event registers goes through the one check of all registrations. -/
theorem exists_register_of_registers {e : Event} (hnew : new ∈ e.call.registered)
    (h : s.Registers id new e.clock (s.after e)) :
    ∃ limit ∈ e.call.limit?, ∃ faulty id' range,
      s.register limit faulty id' e.clock new = .ok (range, s.after e) := by
  obtain ⟨clock, call⟩ := e
  cases call with
  | register limit faulty id' new' =>
    obtain rfl := List.mem_singleton.1 hnew
    cases hregister : s.register limit faulty id' clock new with
    | ok res =>
      refine ⟨limit, rfl, faulty, id', res.1, ?_⟩
      simp only [after, hregister]
      rfl
    | error failure =>
      refine absurd ?_ h.ne
      simp only [after, hregister]
      rfl
  | ingest monitor faulty id' poll new' =>
    obtain rfl := List.mem_singleton.1 hnew
    rcases poll.register_store s monitor faulty id' clock new with hsame | ⟨range, hregister⟩
    · exact absurd hsame h.ne
    · exact ⟨monitor.maxRangeSize, rfl, faulty, id', range, hregister⟩
  | _ => simp [Call.registered] at hnew

theorem checked_of_registers {e : Event} (hnew : new ∈ e.call.registered)
    (h : s.Registers id new e.clock (s.after e)) :
    ∃ limit ∈ e.call.limit?, new.check limit = .ok () ∧ new.last ≤ maxNumber := by
  obtain ⟨limit, hlimit, faulty, id', range, hregister⟩ := exists_register_of_registers hnew h
  exact ⟨limit, hlimit, register_checked hregister⟩

/-- A range of a run holds up by itself, to the limit of the call that registered it. -/
theorem exists_checked {es : List Event} {r : RangeRow} (hr : r ∈ (empty.run es).ranges) :
    ∃ e ∈ es, ∃ limit ∈ e.call.limit?, r.scope.check limit = .ok () ∧ r.last ≤ maxNumber := by
  induction es using List.reverseRecOn generalizing r with
  | nil => cases hr
  | append_singleton es e ih =>
    rw [run_append] at hr
    rcases e.range_origin (empty.run es) hr with ⟨q, hq, hdeed⟩ | ⟨id, new, hnew, hregisters, rfl⟩
    · have hscope : q.scope = r.scope := (RangeRecord.of_deed hdeed).2.1
      obtain ⟨e', he', hchecked⟩ := ih hq
      rw [hscope, show q.last = r.last from congrArg RangeRequest.last hscope] at hchecked
      exact ⟨e', List.mem_append_left _ he', hchecked⟩
    · obtain ⟨limit, hlimit, hcheck, hlast⟩ := checked_of_registers hnew hregisters
      exact ⟨e, by simp, limit, hlimit, (NewRange.check_eq_ok_iff.1 hcheck).1, hlast⟩

/-! ## Numbers that are passed -/

theorem status_eq_used_or_void {st : FolioState} :
    st.status = .used ∨ st.status = .void ↔ st ≠ .available := by
  cases st <;> simp [FolioState.status]

theorem isGreatest_of_maxIssued? {series : Series} {issued : Nat}
    (h : s.maxIssued? series = some issued) : IsGreatest {n | ∃ f ∈ s.folios, f.series = series ∧
      (f.state.status = .used ∨ f.state.status = .void) ∧ f.number = n} issued := by
  constructor
  · obtain ⟨f, hf, rfl⟩ := List.mem_map.1 (greatest_mem h)
    obtain ⟨hf, hst⟩ := List.mem_filter.1 hf
    obtain ⟨hf, hseries⟩ := mem_foliosOf.1 hf
    exact ⟨f, hf, hseries, status_eq_used_or_void.2 (by simpa using hst), rfl⟩
  · rintro n ⟨f, hf, hseries, hst, rfl⟩
    exact le_maxIssued? h hf hseries (status_eq_used_or_void.1 hst)

theorem passed_iff :
    s.Passed new ↔ ∃ issued, s.maxIssued? new.series = some issued ∧ new.first ≤ issued := by
  constructor
  · rintro ⟨issued, hgreatest, hle⟩
    cases hmax : s.maxIssued? new.series with
    | none =>
      obtain ⟨f, hf, hseries, hst, -⟩ := hgreatest.1
      exact absurd (maxIssued?_eq_none hmax hf hseries) (status_eq_used_or_void.1 hst)
    | some m => exact ⟨m, rfl, (isGreatest_of_maxIssued? hmax).unique hgreatest ▸ hle⟩
  · rintro ⟨issued, hmax, hle⟩
    exact ⟨issued, isGreatest_of_maxIssued? hmax, hle⟩

/-! ## What the numbers are checked for -/

section

variable (h : Aligned s) (hle : new.first ≤ new.last)

include h hle

theorem checkNumbers_of_taken (htaken : s.Taken new) :
    ∃ existing, s.obstacle? new.series new.first new.last = some existing ∧ s.checkNumbers new =
      .error (.rangeOverlap new.series new.first new.last existing) := by
  obtain ⟨existing, hobstacle⟩ := Option.ne_none_iff_exists'.1 fun hnone =>
    (h.obstacle?_eq_none_iff hle).1 hnone htaken
  exact ⟨existing, hobstacle, by simp only [checkNumbers, hobstacle]⟩

theorem checkNumbers_of_passed (hfree : ¬ s.Taken new) (hpassed : s.Passed new) :
    ∃ fault, s.checkNumbers new = .error (.invalidRange fault) := by
  obtain ⟨issued, hmax, hissued⟩ := passed_iff.1 hpassed
  refine ⟨.notAboveIssued new.first issued new.series, ?_⟩
  simp only [checkNumbers, (h.obstacle?_eq_none_iff hle).2 hfree, hmax, if_pos hissued]

theorem checkNumbers_of_free (hfree : ¬ s.Taken new) (habove : ¬ s.Passed new) :
    s.checkNumbers new = .ok () := by
  unfold checkNumbers
  rw [(h.obstacle?_eq_none_iff hle).2 hfree]
  cases hmax : s.maxIssued? new.series with
  | none => rfl
  | some issued => exact if_neg fun hissued => habove (passed_iff.2 ⟨issued, hmax, hissued⟩)

end

/-- The tables refuse rows for reasons of their own. -/
theorem checkRows_eq_error {failure : Failure} (h : s.checkRows faulty id new = .error failure) :
    ∃ fault, failure = .storage fault := by
  unfold checkRows at h
  split at h
  · exact ⟨_, (Except.error.inj h).symm⟩
  split at h
  · exact ⟨_, (Except.error.inj h).symm⟩
  split at h
  · exact ⟨_, (Except.error.inj h).symm⟩
  · cases h

/-! ## Registration -/

/-- The answer to a registration, as the numbers of the range are. -/
theorem register_answers (h : Aligned s) (hcheck : new.check limit = .ok ())
    (hlast : new.last ≤ maxNumber) (faulty : Option Nat) (id : String) (now : Instant) :
    (s.Taken new ∧ ∃ existing, s.obstacle? new.series new.first new.last = some existing ∧
      s.register limit faulty id now new =
        .error (.rangeOverlap new.series new.first new.last existing)) ∨
    (¬ s.Taken new ∧ s.Passed new ∧
      ∃ fault, s.register limit faulty id now new = .error (.invalidRange fault)) ∨
    (¬ s.Taken new ∧ ¬ s.Passed new ∧
      ((∃ fault, s.register limit faulty id now new = .error (.storage fault)) ∨
        ∃ res, s.register limit faulty id now new = .ok res)) := by
  have hle := (NewRange.check_eq_ok hcheck).2
  rw [register_eq_of_check hcheck hlast]
  by_cases htaken : s.Taken new
  · obtain ⟨existing, hobstacle, hnumbers⟩ := checkNumbers_of_taken h hle htaken
    rw [hnumbers]
    exact .inl ⟨htaken, existing, hobstacle, rfl⟩
  by_cases hpassed : s.Passed new
  · obtain ⟨fault, hnumbers⟩ := checkNumbers_of_passed h hle htaken hpassed
    rw [hnumbers]
    exact .inr (.inl ⟨htaken, hpassed, fault, rfl⟩)
  · rw [checkNumbers_of_free h hle htaken hpassed]
    refine .inr (.inr ⟨htaken, hpassed, ?_⟩)
    cases hrows : s.checkRows faulty id new with
    | ok => exact .inr ⟨_, rfl⟩
    | error failure =>
      obtain ⟨fault, rfl⟩ := checkRows_eq_error hrows
      exact .inl ⟨fault, rfl⟩

theorem length_folios (hle : new.first ≤ new.last) :
    (new.folios id).length = new.last - new.first + 1 := by
  rw [NewRange.folios, List.length_map, List.length_range']
  omega

/-- In every state of a run a range that holds up by itself is admitted or refused by its numbers alone. -/
theorem register_admits_exactly (es : List Event) (hcheck : new.check limit = .ok ())
    (hlast : new.last ≤ maxNumber) (faulty : Option Nat) (id : String) (now : Instant) :
    (empty.run es).AdmitsExactly limit faulty id now new := by
  have h := (run_coherent es).toAligned
  have hle := (NewRange.check_eq_ok hcheck).2
  refine ⟨?_, ?_, ?_, ?_⟩
  · rcases register_answers h hcheck hlast faulty id now with
      ⟨htaken, existing, -, hanswer⟩ | ⟨hfree, -, fault, hanswer⟩ |
      ⟨hfree, -, ⟨fault, hanswer⟩ | ⟨res, hanswer⟩⟩ <;> rw [hanswer]
    · exact iff_of_true ⟨_, _, _, _, rfl⟩ htaken
    · exact iff_of_false (by simp) hfree
    · exact iff_of_false (by simp) hfree
    · exact iff_of_false (by simp) hfree
  · intro series first last existing hoverlap
    rcases register_answers h hcheck hlast faulty id now with
      ⟨-, other, hobstacle, hanswer⟩ | ⟨-, -, fault, hanswer⟩ | ⟨-, -, ⟨fault, hanswer⟩ | ⟨res, hanswer⟩⟩ <;>
      cases hanswer.symm.trans hoverlap
    exact ⟨rfl, rfl, rfl, h.exists_of_obstacle? hobstacle⟩
  · intro hfree
    rcases register_answers h hcheck hlast faulty id now with
      ⟨htaken, -⟩ | ⟨-, hpassed, fault, hanswer⟩ | ⟨-, habove, ⟨fault, hanswer⟩ | ⟨res, hanswer⟩⟩
    · exact absurd htaken hfree
    · exact iff_of_true ⟨fault, hanswer⟩ hpassed
    · rw [hanswer]
      exact iff_of_false (by simp) habove
    · rw [hanswer]
      exact iff_of_false (by simp) habove
  · intro hfree habove hmillis hfresh hmedium
    have hregister : (empty.run es).register limit faulty id now new = _ :=
      register_of_checks hcheck hlast (checkNumbers_of_free h hle hfree habove)
        (checkRows_eq_ok_iff.2 ⟨hmillis, hfresh, hmedium⟩)
    refine ⟨_, hregister, fun o => ?_, rfl, rfl, length_folios hle, fun f hf => ?_⟩
    · rw [Session.register_carriesOut, hregister, Scene.leave_settled_ok]
    · obtain ⟨n, -, rfl⟩ := List.mem_map.1 hf
      exact ⟨rfl, rfl, rfl⟩

/-- One range meets two that are there, of which one has lapsed; the next lies above both and is
registered. -/
theorem register_admits_exactly_passingOver :
    (empty.run passingOver).AdmitsExactly 10 none "across" (early 21)
        ⟨⟨"A", "T"⟩, 8, 15, early 0, early 50, none, none⟩ ∧
      (empty.run passingOver).AdmitsExactly 10 none "above" (early 21)
        ⟨⟨"A", "T"⟩, 21, 30, early 0, early 50, none, none⟩ ∧
      ∃ res, (empty.run passingOver).register 10 none "above" (early 21)
        ⟨⟨"A", "T"⟩, 21, 30, early 0, early 50, none, none⟩ = .ok res :=
  ⟨register_admits_exactly passingOver rfl (by decide) none "across" (early 21),
    register_admits_exactly passingOver rfl (by decide) none "above" (early 21), _, rfl⟩

end Store

end FolioLedger
