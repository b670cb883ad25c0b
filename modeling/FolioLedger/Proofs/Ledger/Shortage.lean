import FolioLedger.Proofs.Ledger.Numbering
import FolioLedger.Proofs.Time.Instant
import Mathlib.Order.Bounds.Basic

/-!
# Answers by stock

Four queries look at the stock of a series, each in words of its own: its folios are counted, its active
range is looked for, the least number is picked, and when there is none it is said why.  In every state
of a run they divide the series alike (`Store.AnswersByStock`), as the tables of a run fit each other: a
folio is of the series of its range, and an exhausted range holds none.

What is answered carries times.  The queries agree exactly if those can be read back
(`Store.answers_by_stock_iff`); `Store.active_range_illegible` is a store that holds one that cannot.
-/

namespace FolioLedger

namespace Store

/-- The folio can be handed out: it is available, and its range is active and expires later. -/
structure Offers (s : Store) (series : Series) (now : Millis) (f : FolioRow) : Prop where
  mem : f ∈ s.folios
  of_series : f.series = series
  available : f.state = .available
  live : ∃ r ∈ s.ranges, r.id = f.rangeId ∧ r.status = .active ∧ now < r.expiresAt

/-- The range has expired, recorded or not, and still holds folios. -/
structure LeavesBehind (s : Store) (series : Series) (now : Millis) (r : RangeRow) : Prop where
  mem : r ∈ s.ranges
  of_series : r.series = series
  lapsed : r.status = .expired ∨ r.status = .active ∧ r.expiresAt ≤ now
  stocked : ∃ f ∈ s.folios, f.rangeId = r.id ∧ f.state = .available

/-- Of two ranges that expired at the same time, the first is named before the second: it is still
recorded as active and the other one as expired, or both are recorded alike and it was registered
first. -/
def NamedBefore (s : Store) (r q : RangeRow) : Prop :=
  r.status = .active ∧ q.status = .expired ∨ r.status = q.status ∧ [r, q].Sublist s.ranges

/-- The range that is named to whoever finds none of the folios left on offer. -/
structure IsLastBehind (s : Store) (series : Series) (now : Millis) (r : RangeRow) : Prop where
  behind : s.LeavesBehind series now r
  latest : ∀ q, s.LeavesBehind series now q → q.expiresAt ≤ r.expiresAt
  first : ∀ q, s.LeavesBehind series now q → q.expiresAt = r.expiresAt → q ≠ r → s.NamedBefore r q

/-- The stock of a series decides what is answered to one who asks for a folio, and the queries about the
stock agree with that. -/
structure AnswersByStock (s : Store) (desk : Desk) (now : Instant) (series : Series)
    (document : Option String) : Prop where
  assigned_iff : (∃ a, (desk.assign s now series document).1 = .ok a) ↔
    0 < s.countAvailable series now.toMillis
  found_iff : (∃ r, s.activeRange now series = .ok r) ↔ 0 < s.countAvailable series now.toMillis
  least : ∀ a, (desk.assign s now series document).1 = .ok a → a.folio.series = series ∧
    IsLeast {n | ∃ f, s.Offers series now.toMillis f ∧ f.number = n} a.folio.number
  expired_iff :
    (∃ id moment, (desk.assign s now series document).1 =
      .error (.authorizationExpired series id moment)) ↔
    (∃ f ∈ s.folios, f.series = series ∧ f.state = .available) ∧
      ∀ f, ¬ s.Offers series now.toMillis f
  /-- The range that is named is the last of those that lapsed with folios left. -/
  named : ∀ other id moment, (desk.assign s now series document).1 =
      .error (.authorizationExpired other id moment) →
    other = series ∧ ∃ r, s.LeavesBehind series now.toMillis r ∧ r.id = id ∧
      Instant.ofMillis r.expiresAt = .ok moment ∧
      ∀ q, s.LeavesBehind series now.toMillis q → q.expiresAt ≤ r.expiresAt
  bare_iff : (desk.assign s now series document).1 = .error (.noFolioAvailable series) ↔
    ∀ f ∈ s.folios, f.series = series → f.state ≠ .available

/-- The active range of a series, before it is read back. -/
def currentRange? (s : Store) (series : Series) (now : Millis) : Option RangeRow :=
  latestAuthorization (s.ranges.filter fun r =>
    r.series = series ∧ r.status = .active ∧ now < r.expiresAt ∧ s.hasStock r.id)

/-- The range that a shortage is blamed on. -/
def lapsedRange? (s : Store) (series : Series) (now : Millis) : Option RangeRow :=
  latestExpiry (s.lapsedRanges series now)

/-- The times that are answered about the stock can be read back. -/
structure Presentable (s : Store) (now : Instant) (series : Series) : Prop where
  clock : 0 < s.countAvailable series now.toMillis → now.Readable
  current : ∀ r, s.currentRange? series now.toMillis = some r → r.Legible
  lapsed : s.countAvailable series now.toMillis = 0 →
    ∀ r, s.lapsedRange? series now.toMillis = some r → ∃ t, Instant.ofMillis r.expiresAt = .ok t

/-! ## What the queries look for -/

variable {s : Store} {series : Series} {now : Millis}

theorem mem_assignable_iff_offers {f : FolioRow} :
    f ∈ s.assignable series now ↔ s.Offers series now f := by
  rw [mem_assignable, isLive_iff]
  exact ⟨fun ⟨hmem, hseries, hav, hlive⟩ => ⟨hmem, hseries, hav, hlive⟩,
    fun ⟨hmem, hseries, hav, hlive⟩ => ⟨hmem, hseries, hav, hlive⟩⟩

theorem countAvailable_pos : 0 < s.countAvailable series now ↔ ∃ f, s.Offers series now f := by
  rw [countAvailable, List.length_pos_iff_exists_mem]
  exact exists_congr fun f => mem_assignable_iff_offers

theorem countAvailable_eq_zero :
    s.countAvailable series now = 0 ↔ ∀ f, ¬ s.Offers series now f := by
  rw [← not_exists, ← countAvailable_pos, Nat.pos_iff_ne_zero, not_not]

theorem hasLapsed_iff {r : RangeRow} : hasLapsed r now = true ↔
    r.status = .expired ∨ r.status = .active ∧ r.expiresAt ≤ now := by
  simp [hasLapsed]

theorem mem_lapsed {r : RangeRow} :
    r ∈ s.ranges.filter (fun r => r.series = series ∧ hasLapsed r now ∧ s.hasStock r.id) ↔
      s.LeavesBehind series now r := by
  simp only [List.mem_filter, decide_eq_true_eq, hasLapsed_iff, hasStock_iff]
  exact ⟨fun ⟨hmem, hseries, hlapsed, hstock⟩ => ⟨hmem, hseries, hlapsed, hstock⟩,
    fun ⟨hmem, hseries, hlapsed, hstock⟩ => ⟨hmem, hseries, hlapsed, hstock⟩⟩

theorem mem_lapsedRanges {r : RangeRow} :
    r ∈ s.lapsedRanges series now ↔ s.LeavesBehind series now r := by
  simp only [lapsedRanges, List.mem_append, List.mem_filter (p := fun r => decide (_ = _)),
    decide_eq_true_eq, mem_lapsed, ← and_or_left]
  exact ⟨And.left, fun hr => ⟨hr, hr.lapsed.symm.imp_left And.left⟩⟩

/-- An available folio that is not offered was left behind by its range. -/
theorem exists_leavesBehind (h : Coherent s) {f : FolioRow} (hf : f ∈ s.folios)
    (hseries : f.series = series) (hav : f.state = .available) (hnone : ¬ s.Offers series now f) :
    ∃ r, s.LeavesBehind series now r := by
  obtain ⟨r, hr, hid, hrs, -⟩ := h.exists_range hf
  have hstock : ∃ g ∈ s.folios, g.rangeId = r.id ∧ g.state = .available := ⟨f, hf, hid.symm, hav⟩
  refine ⟨r, hr, hrs ▸ hseries, ?_, hstock⟩
  cases hst : r.status with
  | active =>
    refine .inr ⟨rfl, Int.not_lt.1 fun hlt => hnone ⟨hf, hseries, hav, r, hr, hid, hst, hlt⟩⟩
  | expired => exact .inl rfl
  | exhausted =>
    rw [← hasStock_iff, h.spent r hr hst] at hstock
    cases hstock

theorem LeavesBehind.exists_folio (h : Aligned s) {r : RangeRow} (hr : s.LeavesBehind series now r) :
    ∃ f ∈ s.folios, f.series = series ∧ f.state = .available := by
  obtain ⟨f, hf, hid, hav⟩ := hr.stocked
  exact ⟨f, hf, (h.of_rangeId hf hr.mem hid).1.trans hr.of_series, hav⟩

theorem lapsedRange?_eq_none :
    s.lapsedRange? series now = none ↔ ∀ r, ¬ s.LeavesBehind series now r := by
  rw [lapsedRange?, latestExpiry_eq_none, List.eq_nil_iff_forall_not_mem]
  exact forall_congr' fun r => not_congr mem_lapsedRanges

/-- Ranges that lapsed come in the order in which they are named. -/
theorem namedBefore_of_sublist {r q : RangeRow} (h : [r, q].Sublist (s.lapsedRanges series now)) :
    s.NamedBefore r q := by
  have hstatus : ∀ status, [r, q].Sublist ((s.ranges.filter fun r =>
      r.series = series ∧ hasLapsed r now ∧ s.hasStock r.id).filter (·.status = status)) →
      s.NamedBefore r q := by
    intro status hsub
    have hr := (List.mem_filter.1 (hsub.subset (List.mem_cons_self ..))).2
    have hq := (List.mem_filter.1 (hsub.subset (List.mem_cons_of_mem _ (List.mem_cons_self ..)))).2
    rw [decide_eq_true_eq] at hr hq
    exact .inr ⟨hr.trans hq.symm, hsub.trans (List.filter_sublist.trans List.filter_sublist)⟩
  obtain ⟨actives, expireds, heq, hact, hexp⟩ := List.sublist_append_iff.1 h
  -- Both are recorded as active, or the first one only, or both as expired.
  cases actives with
  | nil =>
    obtain rfl : [r, q] = expireds := heq
    exact hstatus _ hexp
  | cons a actives =>
    obtain ⟨rfl, hrest⟩ := List.cons.inj heq
    cases actives with
    | nil =>
      obtain rfl : [q] = expireds := hrest
      have hactive := (List.mem_filter.1 (List.singleton_sublist.1 hact)).2
      have hexpired := (List.mem_filter.1 (List.singleton_sublist.1 hexp)).2
      exact .inl ⟨of_decide_eq_true hactive, of_decide_eq_true hexpired⟩
    | cons b actives =>
      obtain ⟨rfl, hnil⟩ := List.cons.inj hrest
      obtain ⟨rfl, -⟩ := List.append_eq_nil_iff.1 hnil.symm
      exact hstatus _ hact

theorem lapsedRange?_eq_some {r : RangeRow} (h : s.lapsedRange? series now = some r) :
    s.IsLastBehind series now r := by
  obtain ⟨hmem, hlatest⟩ := latestExpiry_eq_some h
  refine ⟨mem_lapsedRanges.1 hmem, fun q hq => hlatest q (mem_lapsedRanges.2 hq), ?_⟩
  intro q hq hsame hne
  exact namedBefore_of_sublist (latestExpiry_sublist h (mem_lapsedRanges.2 hq) hne hsame)

/-- There is an active range to find exactly if there is a folio to hand out. -/
theorem currentRange?_eq_none (h : Aligned s) :
    s.currentRange? series now = none ↔ s.countAvailable series now = 0 := by
  rw [currentRange?, latestAuthorization_eq_none, List.filter_eq_nil_iff, countAvailable_eq_zero]
  simp only [decide_eq_true_eq, hasStock_iff]
  constructor
  · rintro hnone f ⟨hf, rfl, hav, r, hr, hid, hact, hlater⟩
    exact hnone r hr ⟨(h.of_rangeId hf hr hid.symm).1.symm, hact, hlater, f, hf, hid.symm, hav⟩
  · rintro hnone r hr ⟨rfl, hact, hlater, f, hf, hid, hav⟩
    exact hnone f ⟨hf, (h.of_rangeId hf hr hid).1, hav, r, hr, hid.symm, hact, hlater⟩

/-! ## Handing out, case by case -/

section

variable {clock : Instant} {row : FolioRow} (desk : Desk) (document : Option String)

theorem assign_of_none (hnone : s.countAvailable series clock.toMillis = 0) :
    s.assign clock series document = .error (s.shortage series clock.toMillis) := by
  have hempty : leastNumber (s.assignable series clock.toMillis) = none :=
    leastNumber_eq_none.2 (List.length_eq_zero_iff.1 hnone)
  simp only [assign, hempty]
  rfl

theorem assign_of_unreadable {failure : Failure}
    (hrow : leastNumber (s.assignable series clock.toMillis) = some row)
    (hread : Instant.ofMillis clock.toMillis = .error failure) :
    s.assign clock series document = .error failure := by
  simp only [assign, hrow, FolioRow.toFolio, FolioState.usedAt, Option.mapM_some, hread]
  rfl

theorem assign_of_least {usedAt : Instant}
    (hrow : leastNumber (s.assignable series clock.toMillis) = some row)
    (hread : Instant.ofMillis clock.toMillis = .ok usedAt) :
    let taken := s.setFolio series row.number (.used clock.toMillis document)
    s.assign clock series document = .ok
      (⟨⟨row.series, row.number, row.rangeId, .used, some usedAt, document, none, none⟩,
        (taken.settle row.rangeId).countAvailable series clock.toMillis,
        taken.isSpent row.rangeId⟩, taken.settle row.rangeId) := by
  simp only [assign, hrow, FolioRow.toFolio, FolioState.usedAt, Option.mapM_some, hread]
  rfl

/-- With stock there is a folio to hand out. -/
theorem exists_least {ms : Millis} (hpos : 0 < s.countAvailable series ms) :
    ∃ row, leastNumber (s.assignable series ms) = some row := by
  rw [← Option.ne_none_iff_exists', Ne, leastNumber_eq_none]
  exact List.ne_nil_of_length_pos hpos

theorem desk_assign_answer :
    (desk.assign s clock series document).1 = (s.assign clock series document).map Prod.fst := by
  unfold Desk.assign
  cases s.assign clock series document <;> rfl

end

/-! ## What a shortage is blamed on -/

/-- What cannot be read back is a failure of another kind. -/
theorem ofMillis_ne_expired {ms : Millis} {other : Series} {id : String} {moment : Instant} :
    Instant.ofMillis ms ≠ .error (.authorizationExpired other id moment) := by
  unfold Instant.ofMillis
  split <;> nofun

theorem shortage_of_lapsed {r : RangeRow} {moment : Instant}
    (hlapsed : s.lapsedRange? series now = some r) (hread : Instant.ofMillis r.expiresAt = .ok moment) :
    s.shortage series now = .authorizationExpired series r.id moment := by
  unfold lapsedRange? at hlapsed
  simp only [shortage, hlapsed, hread]

theorem shortage_of_none (hnone : s.lapsedRange? series now = none) :
    s.shortage series now = .noFolioAvailable series := by
  unfold lapsedRange? at hnone
  simp only [shortage, hnone]

theorem shortage_of_unreadable {r : RangeRow} {failure : Failure}
    (hlapsed : s.lapsedRange? series now = some r)
    (hread : Instant.ofMillis r.expiresAt = .error failure) : s.shortage series now = failure := by
  unfold lapsedRange? at hlapsed
  simp only [shortage, hlapsed, hread]

theorem shortage_eq_expired {other : Series} {id : String} {moment : Instant}
    (h : s.shortage series now = .authorizationExpired other id moment) :
    other = series ∧ ∃ r, s.lapsedRange? series now = some r ∧ r.id = id ∧
      Instant.ofMillis r.expiresAt = .ok moment := by
  cases hlapsed : s.lapsedRange? series now with
  | none =>
    rw [shortage_of_none hlapsed] at h
    cases h
  | some r =>
    cases hread : Instant.ofMillis r.expiresAt with
    | ok t =>
      rw [shortage_of_lapsed hlapsed hread] at h
      cases h
      exact ⟨rfl, r, rfl, rfl, hread⟩
    | error failure =>
      rw [shortage_of_unreadable hlapsed hread] at h
      exact absurd (h ▸ hread) ofMillis_ne_expired

/-- Whoever is told of an expired authorization is told of the range that lapsed last. -/
theorem desk_assign_eq_expired {clock : Instant} {desk : Desk} {document : Option String}
    {other : Series} {id : String} {moment : Instant}
    (h : (desk.assign s clock series document).1 = .error (.authorizationExpired other id moment)) :
    s.countAvailable series clock.toMillis = 0 ∧ other = series ∧
      ∃ r, s.IsLastBehind series clock.toMillis r ∧ r.id = id ∧
        Instant.ofMillis r.expiresAt = .ok moment := by
  rw [desk_assign_answer] at h
  rcases Nat.eq_zero_or_pos (s.countAvailable series clock.toMillis) with hnone | hpos
  · rw [assign_of_none document hnone] at h
    obtain ⟨hother, r, hr, hid, hread⟩ := shortage_eq_expired (Except.error.inj h)
    exact ⟨hnone, hother, r, lapsedRange?_eq_some hr, hid, hread⟩
  · obtain ⟨row, hrow⟩ := exists_least hpos
    cases hread : Instant.ofMillis clock.toMillis with
    | ok usedAt =>
      rw [assign_of_least document hrow hread] at h
      cases h
    | error failure =>
      rw [assign_of_unreadable document hrow hread] at h
      cases h
      exact absurd hread ofMillis_ne_expired

/-! ## Agreement -/

section

variable {clock : Instant} {desk : Desk} {document : Option String} (h : Coherent s)

include h in
theorem AnswersByStock.presentable (hanswers : s.AnswersByStock desk clock series document) :
    s.Presentable clock series where
  clock hpos := by
    obtain ⟨row, hrow⟩ := exists_least hpos
    obtain ⟨a, hassign⟩ := hanswers.assigned_iff.2 hpos
    cases hread : Instant.ofMillis clock.toMillis with
    | ok usedAt => exact ⟨usedAt, hread⟩
    | error failure =>
      rw [desk_assign_answer, assign_of_unreadable document hrow hread] at hassign
      cases hassign
  current r hcurrent := by
    have hpos : 0 < s.countAvailable series clock.toMillis := by
      rw [Nat.pos_iff_ne_zero, Ne, ← currentRange?_eq_none h.toAligned, hcurrent]
      nofun
    obtain ⟨d, hfound⟩ := hanswers.found_iff.2 hpos
    unfold currentRange? at hcurrent
    simp only [activeRange, hcurrent] at hfound
    exact ⟨d, hfound⟩
  lapsed hnone r hlapsed := by
    obtain ⟨f, hf, hseries, hav⟩ := (lapsedRange?_eq_some hlapsed).behind.exists_folio h.toAligned
    obtain ⟨id, moment, hassign⟩ :=
      hanswers.expired_iff.2 ⟨⟨f, hf, hseries, hav⟩, countAvailable_eq_zero.1 hnone⟩
    rw [desk_assign_answer, assign_of_none document hnone] at hassign
    obtain ⟨-, q, hq, -, hread⟩ := shortage_eq_expired (Except.error.inj hassign)
    obtain rfl : r = q := Option.some.inj (hlapsed.symm.trans hq)
    exact ⟨moment, hread⟩

include h in
theorem answersByStock_of_none (hnone : s.countAvailable series clock.toMillis = 0)
    (hp : s.Presentable clock series) : s.AnswersByStock desk clock series document := by
  have hassign : (desk.assign s clock series document).1 =
      .error (s.shortage series clock.toMillis) := by
    rw [desk_assign_answer, assign_of_none document hnone]
    rfl
  have hfound : s.activeRange clock series = .error (.notFound (.activeRange series)) := by
    have hcurrent := (currentRange?_eq_none h.toAligned).2 hnone
    unfold currentRange? at hcurrent
    simp only [activeRange, hcurrent]
  have hoffers := countAvailable_eq_zero.1 hnone
  refine ⟨?_, ?_, ?_, ?_, ?_, ?_⟩
  · rw [hassign, hnone]
    simp
  · rw [hfound, hnone]
    simp
  · intro a ha
    rw [hassign] at ha
    cases ha
  · rw [hassign]
    constructor
    · rintro ⟨id, moment, hexpired⟩
      obtain ⟨-, r, hr, -⟩ := shortage_eq_expired (Except.error.inj hexpired)
      exact ⟨(lapsedRange?_eq_some hr).behind.exists_folio h.toAligned, hoffers⟩
    · rintro ⟨⟨f, hf, hseries, hav⟩, -⟩
      obtain ⟨q, hq⟩ := exists_leavesBehind h hf hseries hav (hoffers f)
      obtain ⟨r, hr⟩ := Option.ne_none_iff_exists'.1 fun hnone' => lapsedRange?_eq_none.1 hnone' q hq
      obtain ⟨moment, hread⟩ := hp.lapsed hnone r hr
      exact ⟨r.id, moment, congrArg Except.error (shortage_of_lapsed hr hread)⟩
  · intro other id moment hexpired
    rw [hassign] at hexpired
    obtain ⟨hother, r, hr, hid, hread⟩ := shortage_eq_expired (Except.error.inj hexpired)
    obtain ⟨hleft, hlatest, -⟩ := lapsedRange?_eq_some hr
    exact ⟨hother, r, hleft, hid, hread, hlatest⟩
  · rw [hassign]
    constructor
    · intro hbare f hf hseries hav
      obtain ⟨q, hq⟩ := exists_leavesBehind h hf hseries hav (hoffers f)
      obtain ⟨r, hr⟩ := Option.ne_none_iff_exists'.1 fun hnone' => lapsedRange?_eq_none.1 hnone' q hq
      obtain ⟨moment, hread⟩ := hp.lapsed hnone r hr
      rw [shortage_of_lapsed hr hread] at hbare
      cases hbare
    · intro hbare
      refine congrArg Except.error (shortage_of_none (lapsedRange?_eq_none.2 fun r hr => ?_))
      obtain ⟨f, hf, hseries, hav⟩ := hr.exists_folio h.toAligned
      exact hbare f hf hseries hav

include h in
theorem answersByStock_of_pos (hpos : 0 < s.countAvailable series clock.toMillis)
    (hp : s.Presentable clock series) : s.AnswersByStock desk clock series document := by
  obtain ⟨f, hf⟩ := countAvailable_pos.1 hpos
  obtain ⟨row, hrow⟩ := exists_least hpos
  obtain ⟨usedAt, hread⟩ := hp.clock hpos
  obtain ⟨a, ha, hassign⟩ : ∃ a : Assignment, (a.folio.series = row.series ∧
      a.folio.number = row.number) ∧ (desk.assign s clock series document).1 = .ok a := by
    rw [desk_assign_answer, assign_of_least document hrow hread]
    exact ⟨_, ⟨rfl, rfl⟩, rfl⟩
  refine ⟨?_, ?_, ?_, ?_, ?_, ?_⟩
  · rw [hassign]
    exact iff_of_true ⟨a, rfl⟩ hpos
  · refine iff_of_true ?_ hpos
    obtain ⟨r, hr⟩ := Option.ne_none_iff_exists'.1 fun hnone =>
      Nat.ne_of_gt hpos ((currentRange?_eq_none h.toAligned).1 hnone)
    obtain ⟨d, hread⟩ := hp.current r hr
    unfold currentRange? at hr
    refine ⟨d, ?_⟩
    simp only [activeRange, hr, hread]
  · intro b hb
    obtain rfl : a = b := Except.ok.inj (hassign.symm.trans hb)
    obtain ⟨hmem, hle⟩ := leastNumber_eq_some hrow
    have hoffered := mem_assignable_iff_offers.1 hmem
    rw [ha.1, ha.2]
    refine ⟨hoffered.of_series, ⟨row, hoffered, rfl⟩, ?_⟩
    rintro n ⟨g, hg, rfl⟩
    exact hle g (mem_assignable_iff_offers.2 hg)
  · rw [hassign]
    exact iff_of_false (by simp) fun hnone => hnone.2 f hf
  · intro other id moment hexpired
    rw [hassign] at hexpired
    cases hexpired
  · rw [hassign]
    exact iff_of_false nofun fun hbare => hbare f hf.mem hf.of_series hf.available

end

theorem presentable_of_legible {clock : Instant} (hread : clock.Readable)
    (hlegible : ∀ r ∈ s.ranges, r.series = series → r.Legible) : s.Presentable clock series where
  clock _ := hread
  current r hr := by
    obtain ⟨hmem, hcond⟩ := List.mem_filter.1 (latestAuthorization_mem hr)
    exact hlegible r hmem (of_decide_eq_true hcond).1
  lapsed _ r hr := by
    have hleft := (lapsedRange?_eq_some hr).behind
    exact (RangeRecord.legible_iff.1 (hlegible r hleft.mem hleft.of_series)).2.1

/-- In every state of a run, at every clock reading, the queries about the stock of a series agree
exactly if the times that they answer can be read back, and so whenever those of the clock and of the
ranges of the series can. -/
theorem answers_by_stock_iff (es : List Event) (desk : Desk) (now : Instant) (series : Series)
    (document : Option String) :
    ((empty.run es).AnswersByStock desk now series document ↔
      (empty.run es).Presentable now series) ∧
    (now.Readable → (∀ r ∈ (empty.run es).ranges, r.series = series → r.Legible) →
      (empty.run es).Presentable now series) := by
  have h := run_coherent es
  refine ⟨⟨fun hanswers => hanswers.presentable h, fun hp => ?_⟩, presentable_of_legible⟩
  rcases Nat.eq_zero_or_pos ((empty.run es).countAvailable series now.toMillis) with hnone | hpos
  · exact answersByStock_of_none h hnone hp
  · exact answersByStock_of_pos h hpos hp

/-- While a later range lasts, and after all have lapsed. -/
theorem answers_by_stock_passingOver :
    (empty.run passingOver).AnswersByStock ⟨true, some 3⟩ (early 20) ⟨"A", "T"⟩ none ∧
      (empty.run passingOver).AnswersByStock ⟨true, some 3⟩ (early 55) ⟨"A", "T"⟩ none :=
  have hlegible : ∀ r ∈ (empty.run passingOver).ranges, r.series = ⟨"A", "T"⟩ → r.Legible := by
    decide
  have answers := answers_by_stock_iff passingOver ⟨true, some 3⟩
  ⟨(answers (early 20) ⟨"A", "T"⟩ none).1.2
      ((answers (early 20) ⟨"A", "T"⟩ none).2 (by decide) hlegible),
    (answers (early 55) ⟨"A", "T"⟩ none).1.2
      ((answers (early 55) ⟨"A", "T"⟩ none).2 (by decide) hlegible)⟩

/-- A range that was warned about in the last leap second. -/
def warnedInLeap : List Event :=
  [⟨earlyAt 2, .register 10 none "R1" ⟨⟨"A", "T"⟩, 1, 5, earlyAt 0, earlyAt 50, none, none⟩⟩,
   ⟨earlyAt 2, .markNearExpiry "R1" lastLeap⟩]

/-- Five folios are counted and the first of them is handed out, but the active range is not found. -/
theorem active_range_illegible :
    (empty.run warnedInLeap).countAvailable ⟨"A", "T"⟩ (earlyAt 2).toMillis = 5 ∧
    (∃ a, (Desk.assign ⟨false, none⟩ (empty.run warnedInLeap) (earlyAt 2) ⟨"A", "T"⟩ none).1 = .ok a ∧
      a.folio.number = 1) ∧
    (empty.run warnedInLeap).activeRange (earlyAt 2) ⟨"A", "T"⟩ =
      .error (.storage (.timeOutOfRange 8210266876800000)) ∧
    ¬ (empty.run warnedInLeap).AnswersByStock ⟨false, none⟩ (earlyAt 2) ⟨"A", "T"⟩ none := by
  have hfound : (empty.run warnedInLeap).activeRange (earlyAt 2) ⟨"A", "T"⟩ =
      .error (.storage (.timeOutOfRange 8210266876800000)) := by rfl
  have hcount : (empty.run warnedInLeap).countAvailable ⟨"A", "T"⟩ (earlyAt 2).toMillis = 5 := by rfl
  refine ⟨hcount, ⟨_, rfl, rfl⟩, hfound, fun hanswers => ?_⟩
  obtain ⟨r, hr⟩ := hanswers.found_iff.2 (by rw [hcount]; decide)
  rw [hfound] at hr
  cases hr

end Store

end FolioLedger
