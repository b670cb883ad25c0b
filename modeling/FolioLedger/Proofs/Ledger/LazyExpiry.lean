import FolioLedger.Proofs.Ledger.Naming
import FolioLedger.Proofs.Ledger.Shortage
import Mathlib.Logic.Equiv.Basic

/-!
# Expiry without sweeps

A sweep records that ranges have expired.  Every look-up asks the clock as well, so while the clock
does not go back, it makes no difference whether ranges were swept before.  One store lags behind
another (`Store.Lags`) if they agree but for the names of ranges, and but for ranges that are
recorded as expired in the other one only and whose expiry has come.  Such a pair answers alike
(`SameAnswers`), and stays such a pair whatever is asked of both, or when the other one is swept
(`Lags.after`).  One difference may show: where a series has run out and several of its ranges expired
last, at the same time, one recorded as active is named before one recorded as expired
(`named_range_depends_on_sweep`).

The two may drift further apart than a sweep takes them: when the last folio of a lapsed range is
voided, the range is exhausted where it was not swept and stays expired where it was.
-/

namespace FolioLedger

variable (ρ : String → String) (c : Millis)

/-- The second row has another id, and may be recorded as expired when that has come. -/
structure RangeRecord.Lags (r q : RangeRow) : Prop where
  rest : q = { r.rename ρ with status := q.status }
  status : q.status = r.status ∨ (q.status = .expired ∧ r.expiresAt ≤ c)

/-- The second store may be swept further than the first. -/
structure Store.Lags (s t : Store) : Prop where
  ranges : List.Forall₂ (RangeRecord.Lags ρ c) s.ranges t.ranges
  folios : t.folios = s.folios.map (FolioRow.rename ρ)

variable {ρ} {c}

namespace RangeRecord.Lags

variable {r q : RangeRow} {now : Millis}

theorem fields (h : Lags ρ c r q) : q.id = ρ r.id ∧ q.series = r.series ∧ q.first = r.first ∧
    q.last = r.last ∧ q.authorizedAt = r.authorizedAt ∧ q.expiresAt = r.expiresAt := by
  rw [h.rest]
  exact ⟨rfl, rfl, rfl, rfl, rfl, rfl⟩

theorem mono (h : Lags ρ c r q) (hc : c ≤ now) : Lags ρ now r q :=
  ⟨h.rest, h.status.imp_right fun ⟨hexp, hle⟩ => ⟨hexp, Int.le_trans hle hc⟩⟩

theorem live_iff (h : Lags ρ c r q) (hc : c ≤ now) :
    (q.status = .active ∧ now < q.expiresAt) ↔ (r.status = .active ∧ now < r.expiresAt) := by
  obtain ⟨-, -, -, -, -, hexpires⟩ := h.fields
  rw [hexpires]
  rcases h.status with hsame | ⟨hexp, hle⟩
  · rw [hsame]
  · have hpast : ¬ now < r.expiresAt := Int.not_lt.2 (Int.le_trans hle hc)
    simp [hpast]

/-- A live range is the same in both. -/
theorem eq_of_live (h : Lags ρ c r q) (hc : c ≤ now) (hlive : now < r.expiresAt) :
    q = r.rename ρ := by
  rcases h.status with hsame | ⟨-, hle⟩
  · rw [h.rest, hsame]
    rfl
  · exact absurd hlive (Int.not_lt.2 (Int.le_trans hle hc))

/-- Among ranges that are not exhausted, both or neither have lapsed. -/
theorem hasLapsed_iff (h : Lags ρ c r q) (hc : c ≤ now) (hexh : r.status ≠ .exhausted) :
    Store.hasLapsed q now = Store.hasLapsed r now := by
  obtain ⟨-, -, -, -, -, hexpires⟩ := h.fields
  unfold Store.hasLapsed
  rw [hexpires]
  rcases h.status with hsame | ⟨hexp, hle⟩
  · rw [hsame]
  · have hpast : r.expiresAt ≤ now := Int.le_trans hle hc
    cases hst : r.status with
    | active => simp [hexp, hpast]
    | expired => simp [hexp]
    | exhausted => exact absurd hst hexh

end RangeRecord.Lags

theorem any_eq_of_forall₂ {α β : Type} {R : α → β → Prop} {p : α → Bool} {q : β → Bool}
    {as : List α} {bs : List β} (h : List.Forall₂ R as bs) (hpq : ∀ a b, R a b → q b = p a) :
    bs.any q = as.any p := by
  induction h with
  | nil => rfl
  | cons hab _ ih => rw [List.any_cons, List.any_cons, hpq _ _ hab, ih]

theorem exists_of_mem_forall₂ {α β : Type} {R : α → β → Prop} {as : List α} {bs : List β}
    (h : List.Forall₂ R as bs) {a : α} (ha : a ∈ as) : ∃ b ∈ bs, R a b := by
  induction h with
  | nil => cases ha
  | @cons a' b as bs hab _ ih =>
    rcases List.mem_cons.1 ha with rfl | ha
    · exact ⟨b, List.mem_cons_self .., hab⟩
    · obtain ⟨b', hb', hab'⟩ := ih ha
      exact ⟨b', List.mem_cons_of_mem b hb', hab'⟩

/-- Answers to whoever wants a folio, of two stores that name ranges anew.  They are the same, or they
name two ranges that were left behind and expired at the same time, last of those of the series. -/
inductive Store.AlikeButForTies (ρ : String → String) (s : Store) (now : Millis) (series : Series)
    (x y : Except Failure Assignment) : Prop where
  | same (h : y = renameAnswer ρ (Assignment.rename ρ) x)
  | tied {r q : RangeRow} {moment : Instant} (hr : s.LeavesBehind series now r)
      (hq : s.LeavesBehind series now q) (hne : q ≠ r) (htie : q.expiresAt = r.expiresAt)
      (hlast : ∀ p, s.LeavesBehind series now p → p.expiresAt ≤ r.expiresAt)
      (hx : x = .error (.authorizationExpired series r.id moment))
      (hy : y = .error (.authorizationExpired series (ρ q.id) moment))

namespace Store.Lags

variable {s t : Store} {now : Millis}

theorem empty : Lags ρ c Store.empty Store.empty := ⟨.nil, rfl⟩

theorem mono (h : Lags ρ c s t) (hc : c ≤ now) : Lags ρ now s t :=
  ⟨h.ranges.imp fun _ _ hrq => hrq.mono hc, h.folios⟩

/-! ## Looking up -/

theorem foliosOf (h : Lags ρ c s t) (series : Series) :
    t.foliosOf series = (s.foliosOf series).map (FolioRow.rename ρ) := by
  unfold Store.foliosOf
  rw [h.folios, List.filter_map]
  rfl

theorem folio? (h : Lags ρ c s t) (series : Series) (number : Nat) :
    t.folio? series number = (s.folio? series number).map (FolioRow.rename ρ) := by
  unfold Store.folio?
  rw [h.folios, List.find?_map]
  rfl

section

variable (hρ : Function.Injective ρ)
include hρ

theorem hasStock (h : Lags ρ c s t) (id : String) : t.hasStock (ρ id) = s.hasStock id := by
  rw [Bool.eq_iff_iff, hasStock_iff, hasStock_iff, h.folios]
  simp [FolioRow.rename, hρ.eq_iff]

theorem isLive (h : Lags ρ c s t) (hc : c ≤ now) (id : String) :
    t.isLive (ρ id) now = s.isLive id now := by
  refine any_eq_of_forall₂ h.ranges fun r q hrq => ?_
  rw [decide_eq_decide, hrq.fields.1, hρ.eq_iff, hrq.live_iff hc]

theorem assignable (h : Lags ρ c s t) (hc : c ≤ now) (series : Series) :
    t.assignable series now = (s.assignable series now).map (FolioRow.rename ρ) := by
  unfold Store.assignable
  rw [h.foliosOf, List.filter_map]
  congr 1
  refine List.filter_congr fun f _ => ?_
  rw [Function.comp_apply, decide_eq_decide]
  show (f.isAvailable = true ∧ t.isLive (ρ f.rangeId) now = true) ↔ _
  rw [h.isLive hρ hc]

theorem countAvailable (h : Lags ρ c s t) (hc : c ≤ now) (series : Series) :
    t.countAvailable series now = s.countAvailable series now := by
  unfold Store.countAvailable
  rw [h.assignable hρ hc, List.length_map]

end

/-! ## Changes on both sides -/

theorem setFolio (h : Lags ρ c s t) (series : Series) (number : Nat) (state : FolioState) :
    Lags ρ c (s.setFolio series number state) (t.setFolio series number state) := by
  refine ⟨h.ranges, ?_⟩
  simp only [Store.setFolio, h.folios, List.map_map]
  refine List.map_congr_left fun f _ => ?_
  by_cases hkey : f.series = series ∧ f.number = number
  · simp [FolioRow.rename, hkey]
  · simp [FolioRow.rename, hkey]

theorem append (h : Lags ρ c s t) (row : RangeRow) (rows : List FolioRow) :
    Lags ρ c { s with ranges := s.ranges ++ [row], folios := s.folios ++ rows }
      { t with
        ranges := t.ranges ++ [row.rename ρ]
        folios := t.folios ++ rows.map (FolioRow.rename ρ) } where
  ranges := List.rel_append h.ranges (.cons ⟨rfl, .inl rfl⟩ .nil)
  folios := by simp [h.folios]

/-- A sweep of the second store that does not run ahead of the clock. -/
theorem expire (h : Lags ρ c s t) {moment : Millis} (hm : moment ≤ c) :
    Lags ρ c s (t.setStatus (isDue · moment) .expired) := by
  refine ⟨List.forall₂_map_right_iff.2 (h.ranges.imp fun r q hrq => ?_), h.folios⟩
  split
  · next hdue =>
    obtain ⟨-, -, -, -, -, hexpires⟩ := hrq.fields
    simp only [isDue, Bool.and_eq_true, decide_eq_true_eq] at hdue
    refine ⟨?_, .inr ⟨rfl, Int.le_trans (hexpires ▸ hdue.2) hm⟩⟩
    rw [hrq.rest]
  · exact hrq

theorem settle (hρ : Function.Injective ρ) (h : Lags ρ c s t) (id : String) :
    Lags ρ c (s.settle id) (t.settle (ρ id)) := by
  rw [settle_eq, settle_eq, h.hasStock hρ]
  refine ⟨List.forall₂_map_left_iff.2 (List.forall₂_map_right_iff.2 ?_), h.folios⟩
  refine h.ranges.imp fun r q hrq => ?_
  simp only [hrq.fields.1, hρ.eq_iff, decide_eq_true_eq]
  rcases hrq.status with hsame | ⟨hexp, hle⟩
  · rw [hsame]
    by_cases hcond : r.id = id ∧ r.status = .active ∧ s.hasStock id = false
    · rw [if_pos hcond, if_pos hcond]
      exact ⟨by rw [hrq.rest]; rfl, .inl rfl⟩
    · rw [if_neg hcond, if_neg hcond]
      exact hrq
  · -- Where it was swept the range stays expired, whatever becomes of it in the other store.
    have hkeep : ¬ (r.id = id ∧ q.status = .active ∧ s.hasStock id = false) := by simp [hexp]
    rw [if_neg hkeep]
    refine ⟨?_, .inr ⟨hexp, ?_⟩⟩
    · rw [hrq.rest]
      split <;> rfl
    · split <;> exact hle

/-! ## Answers -/

theorem isSpent (hρ : Function.Injective ρ) (h : Lags ρ c s t) (hc : c ≤ now) {id : String}
    (hlive : s.isLive id now = true) : t.isSpent (ρ id) = s.isSpent id := by
  obtain ⟨r, hr, hid, hact, -⟩ := isLive_iff.1 hlive
  obtain ⟨q, hq, hqid, hqact, -⟩ := isLive_iff.1 (h.isLive hρ hc id ▸ hlive)
  unfold Store.isSpent
  rw [h.hasStock hρ, List.any_eq_true.2 ⟨r, hr, by simp [hid, hact]⟩,
    List.any_eq_true.2 ⟨q, hq, by simp [hqid, hqact]⟩]

/-- Where rows correspond and are ordered alike, so do the first of the best. -/
theorem rel_firstBest {R : RangeRow → RangeRow → Prop} (better : RangeRow → RangeRow → Prop)
    [DecidableRel better] (hbetter : ∀ r q, R r q → ∀ b b', R b b' → (better q b' ↔ better r b))
    {rows rows' : List RangeRow} (h : List.Forall₂ R rows rows') :
    Option.Rel R (rows.foldl (firstBest better) none) (rows'.foldl (firstBest better) none) := by
  refine List.rel_foldl ?_ .none h
  intro best best' hbest r q hrq
  cases hbest with
  | none => exact .some hrq
  | @some b b' hb =>
    simp only [firstBest, hbetter r q hrq b b' hb]
    split
    · exact .some hrq
    · exact .some hb

section

variable (hρ : Function.Injective ρ) (h : Lags ρ c s t) (hs : Coherent s) (hc : c ≤ now)
  {series : Series}
include hρ h hs hc

theorem lapsed : List.Forall₂ (RangeRecord.Lags ρ c)
    (s.ranges.filter fun r => r.series = series ∧ hasLapsed r now ∧ s.hasStock r.id)
    (t.ranges.filter fun q => q.series = series ∧ hasLapsed q now ∧ t.hasStock q.id) := by
  have hranges := (List.forall₂_and_left _ _).2 ⟨hs.spent, h.ranges⟩
  refine (List.rel_filter ?_ hranges).imp fun _ _ hrq => hrq.2
  rintro r q ⟨hspent, hrq⟩
  obtain ⟨hid, hseries, -⟩ := hrq.fields
  simp only [decide_eq_true_eq, hid, hseries, h.hasStock hρ]
  by_cases hexh : r.status = .exhausted
  · simp [hspent hexh]
  · rw [hrq.hasLapsed_iff hc hexh]

theorem exists_behind {r : RangeRow} (hr : s.LeavesBehind series now r) :
    ∃ q, t.LeavesBehind series now q ∧ RangeRecord.Lags ρ c r q := by
  obtain ⟨q, hq, hrq⟩ := exists_of_mem_forall₂ (h.lapsed hρ hs hc) (mem_lapsed.2 hr)
  exact ⟨q, mem_lapsed.1 hq, hrq⟩

theorem exists_ahead {q : RangeRow} (hq : t.LeavesBehind series now q) :
    ∃ r, s.LeavesBehind series now r ∧ RangeRecord.Lags ρ c r q := by
  obtain ⟨r, hr, hrq⟩ := exists_of_mem_forall₂ (h.lapsed hρ hs hc).flip (mem_lapsed.2 hq)
  exact ⟨r, mem_lapsed.1 hr, hrq⟩

/-- Both series have run out in the same way, and if ranges are named they expired at the same time. -/
theorem shortage : AlikeButForTies ρ s now series (.error (s.shortage series now))
    (.error (t.shortage series now)) := by
  cases hr : s.lapsedRange? series now with
  | none =>
    have hq : t.lapsedRange? series now = none := by
      rw [lapsedRange?_eq_none] at hr ⊢
      intro q hq
      obtain ⟨r, hbehind, -⟩ := h.exists_ahead hρ hs hc hq
      exact hr r hbehind
    rw [shortage_of_none hr, shortage_of_none hq]
    exact .same rfl
  | some r =>
    obtain ⟨hbehind, hlatest, -⟩ := lapsedRange?_eq_some hr
    obtain ⟨p, hp, hrp⟩ := h.exists_behind hρ hs hc hbehind
    obtain ⟨q, hq⟩ := Option.ne_none_iff_exists'.1 fun hnone => lapsedRange?_eq_none.1 hnone p hp
    obtain ⟨hbehindq, hlatestq, -⟩ := lapsedRange?_eq_some hq
    obtain ⟨o, ho, hoq⟩ := h.exists_ahead hρ hs hc hbehindq
    have hexpq : q.expiresAt = o.expiresAt := hoq.fields.2.2.2.2.2
    have htie : o.expiresAt = r.expiresAt := by
      refine Int.le_antisymm (hlatest o ho) ?_
      rw [← hexpq, ← hrp.fields.2.2.2.2.2]
      exact hlatestq p hp
    cases hread : Instant.ofMillis r.expiresAt with
    | ok moment =>
      rw [shortage_of_lapsed hr hread, shortage_of_lapsed hq (hexpq.trans htie ▸ hread),
        hoq.fields.1]
      by_cases hor : o = r
      · subst hor
        exact .same rfl
      · exact .tied hbehind ho hor htie hlatest rfl rfl
    | error failure =>
      rw [shortage_of_unreadable hr hread, shortage_of_unreadable hq (hexpq.trans htie ▸ hread)]
      exact .same (congrArg Except.error (Instant.nameless_ofMillis ρ _ failure hread).symm)

end

theorem activeRange (hρ : Function.Injective ρ) (h : Lags ρ c s t) {now : Instant}
    (hc : c ≤ now.toMillis) (series : Series) :
    t.activeRange now series =
      renameAnswer ρ (RangeRecord.rename ρ) (s.activeRange now series) := by
  have hfilter := List.rel_filter
    (p := fun r => r.series = series ∧ r.status = .active ∧ now.toMillis < r.expiresAt ∧
      s.hasStock r.id)
    (q := fun q => q.series = series ∧ q.status = .active ∧ now.toMillis < q.expiresAt ∧
      t.hasStock q.id) ?_ h.ranges
  · -- A live range is the same in both stores, so whatever is found is the same but for its name.
    have hlive := (List.forall₂_and_left _ _).2 ⟨fun r hr => (List.mem_filter.1 hr).2, hfilter⟩
    have hsame := hlive.imp (S := fun r q => q = r.rename ρ) fun r q ⟨hr, hrq⟩ => by
      simp only [decide_eq_true_eq] at hr
      exact hrq.eq_of_live hc hr.2.2.1
    have hlatest := rel_firstBest (fun r b => b.authorizedAt < r.authorizedAt)
      (fun r q hrq b b' hb => by rw [hrq, hb]; exact Iff.rfl) hsame
    rw [← latestAuthorization_eq, ← latestAuthorization_eq] at hlatest
    unfold Store.activeRange
    generalize latestAuthorization (s.ranges.filter _) = best at hlatest ⊢
    generalize latestAuthorization (t.ranges.filter _) = best' at hlatest ⊢
    cases hlatest with
    | none => rfl
    | @some r q hrq =>
      subst hrq
      exact r.toRange_rename ρ
  · intro r q hrq
    obtain ⟨hid, hseries, -⟩ := hrq.fields
    simp only [decide_eq_true_eq, hid, hseries, h.hasStock hρ,
      ← and_assoc (a := _ = RangeStatus.active)]
    rw [hrq.live_iff hc]

/-- Both operations fail alike, or succeed alike and leave such a pair again. -/
def Alike {α : Type} (ρ : String → String) (c : Millis) (rename : α → α)
    (x y : Except Failure (α × Store)) : Prop :=
  (∃ a s t, x = .ok (a, s) ∧ y = .ok (rename a, t) ∧ Lags ρ c s t) ∨
    ∃ failure, x = .error failure ∧ y = .error (failure.rename ρ)

/-- While there is a folio to hand out. -/
theorem assign (hρ : Function.Injective ρ) (h : Lags ρ c s t) {now : Instant}
    (hc : c ≤ now.toMillis) {series : Series} (hstock : s.assignable series now.toMillis ≠ [])
    (document : Option String) :
    Alike ρ c (Assignment.rename ρ) (s.assign now series document)
      (t.assign now series document) := by
  refine assign_alikeBy (h.assignable hρ hc series) (fun hnone => absurd hnone hstock) ?_ ?_ ?_
    document
  · intro row hrow state
    have hlive := (mem_assignable.1 hrow).2.2.2
    exact (h.setFolio series row.number state).isSpent hρ hc hlive
  · intro row _ state
    exact (h.setFolio series row.number state).settle hρ row.rangeId
  · intro s' t' hsettled
    exact hsettled.countAvailable hρ hc series

theorem void (hρ : Function.Injective ρ) (h : Lags ρ c s t) {now : Instant}
    (hc : c ≤ now.toMillis) (series : Series) (number : Nat) (reason : String) :
    Alike ρ c (fun res => (res.1.rename ρ, res.2)) (s.void now series number reason)
      (t.void now series number reason) := by
  refine void_alikeBy (h.folio? series number) ?_ ?_ reason
  · intro row _ state
    exact (h.setFolio series number state).settle hρ row.rangeId
  · intro s' t' hsettled
    exact hsettled.countAvailable hρ hc series

theorem bind (h : Lags ρ c s t) (series : Series) (number : Nat) (document : String) :
    Alike ρ c (Folio.rename ρ) (s.bind series number document) (t.bind series number document) :=
  bind_alikeBy (h.folio? series number) (fun state => h.setFolio series number state) h document

/-! ## Registering -/

theorem checkNumbers (h : Lags ρ c s t) (hs : Aligned s) (ht : Aligned t) {new : NewRange}
    (hle : new.first ≤ new.last) : t.checkNumbers new = .ok () ↔ s.checkNumbers new = .ok () := by
  rw [ht.checkNumbers_iff hle, hs.checkNumbers_iff hle, h.folios]
  simp [FolioRow.rename]

theorem checkRows (hρ : Function.Injective ρ) (h : Lags ρ c s t) (faulty : Option Nat)
    (id : String) (new : NewRange) : t.checkRows faulty (ρ id) new = s.checkRows faulty id new := by
  have hany : t.ranges.any (·.id = ρ id) = s.ranges.any (·.id = id) :=
    any_eq_of_forall₂ h.ranges fun r q hrq => by
      rw [decide_eq_decide, hrq.fields.1, hρ.eq_iff]
  unfold Store.checkRows
  rw [hany]

/-- Both registrations fail, or both succeed.  Where they fail they may name different ranges, since
an active range is named before an expired one. -/
theorem register (hρ : Function.Injective ρ) (h : Lags ρ c s t) (hs : Aligned s) (ht : Aligned t)
    (limit : Nat) (faulty : Option Nat) (id : String) (now : Instant) (new : NewRange) :
    (∃ s' t', s.register limit faulty id now new = .ok (new.toRange id now, s') ∧
      t.register limit faulty (ρ id) now new = .ok (new.toRange (ρ id) now, t') ∧
      Lags ρ c s' t') ∨
    ∃ failure failure', s.register limit faulty id now new = .error failure ∧
      t.register limit faulty (ρ id) now new = .error failure' := by
  unfold Store.register
  cases hcheck : new.check limit with
  | error failure => exact .inr ⟨_, _, rfl, rfl⟩
  | ok =>
  cases checkNumber new.first with
  | error failure => exact .inr ⟨_, _, rfl, rfl⟩
  | ok =>
  cases checkNumber new.last with
  | error failure => exact .inr ⟨_, _, rfl, rfl⟩
  | ok =>
  have hnumbers := h.checkNumbers hs ht (NewRange.check_eq_ok hcheck).2
  cases hsn : s.checkNumbers new with
  | error failure =>
    cases htn : t.checkNumbers new with
    | error failure' => exact .inr ⟨_, _, rfl, rfl⟩
    | ok => simp [hsn, htn] at hnumbers
  | ok =>
  rw [hnumbers.2 hsn, h.checkRows hρ]
  cases s.checkRows faulty id new with
  | error failure => exact .inr ⟨_, _, rfl, rfl⟩
  | ok =>
    refine .inl ⟨_, _, rfl, rfl, ?_⟩
    have happend := h.append (new.toRow id now) (new.folios id)
    rw [NewRange.map_rename_folios] at happend
    exact happend

end Store.Lags

/-! ## Runs -/

/-- A registration, a handing out, a voiding or a binding, or a sweep that does not run ahead of the
clock. -/
inductive Event.Timely : Event → Prop where
  | register {clock : Instant} (limit : Nat) (faulty : Option Nat) (id : String) (new : NewRange) :
      Timely ⟨clock, .register limit faulty id new⟩
  | assign {clock : Instant} (desk : Desk) (series : Series) (document : Option String) :
      Timely ⟨clock, .assign desk series document⟩
  | void {clock : Instant} (desk : Desk) (series : Series) (number : Nat) (reason : String) :
      Timely ⟨clock, .void desk series number reason⟩
  | bind {clock : Instant} (series : Series) (number : Nat) (document : String) :
      Timely ⟨clock, .bind series number document⟩
  | expire {clock moment : Instant} (h : moment.toMillis ≤ clock.toMillis) :
      Timely ⟨clock, .expire moment⟩

def Event.isSweep (e : Event) : Bool :=
  match e.call with
  | .expire _ => true
  | _ => false

namespace Store.Lags

variable {s t : Store} {now : Instant}

/-! ## What is told -/

theorem desk_assign (hρ : Function.Injective ρ) (h : Lags ρ c s t) (hs : Coherent s)
    (hc : c ≤ now.toMillis) (d : Desk) (series : Series) (document : Option String) :
    AlikeButForTies ρ s now.toMillis series (d.assign s now series document).1
        (d.assign t now series document).1 ∧
      Lags ρ c (d.assign s now series document).2.1 (d.assign t now series document).2.1 ∧
      (d.assign t now series document).2.2 = (d.assign s now series document).2.2 := by
  have hcount := h.countAvailable hρ hc series
  by_cases hstock : s.assignable series now.toMillis = []
  · have hnone : s.countAvailable series now.toMillis = 0 := List.length_eq_zero_iff.2 hstock
    have hlow : d.lowStock t now series = d.lowStock s now series := by
      unfold Desk.lowStock
      rw [hcount]
    unfold Desk.assign
    rw [assign_of_none document hnone, assign_of_none document (hcount.trans hnone), hlow]
    exact ⟨h.shortage hρ hs hc, h, rfl⟩
  · obtain ⟨hanswer, hrest⟩ := d.assign_alikeBy h hcount (h.assign hρ hc hstock document)
    exact ⟨.same hanswer, hrest⟩

theorem desk_void (hρ : Function.Injective ρ) (h : Lags ρ c s t) (hc : c ≤ now.toMillis) (d : Desk)
    (series : Series) (number : Nat) (reason : String) :
    (d.void t now series number reason).1 =
        renameAnswer ρ (Folio.rename ρ) (d.void s now series number reason).1 ∧
      Lags ρ c (d.void s now series number reason).2.1 (d.void t now series number reason).2.1 ∧
      (d.void t now series number reason).2.2 = (d.void s now series number reason).2.2 :=
  d.void_alikeBy h (h.void hρ hc series number reason)

/-! ## Runs -/

/-- The first store is not swept. -/
theorem after (hρ : Function.Injective ρ) (h : Lags ρ c s t) (hs : Coherent s) (ht : Coherent t)
    {e : Event} (he : e.Timely) (hc : c ≤ e.clock.toMillis) :
    Lags ρ e.clock.toMillis (if e.isSweep then s else s.after e) (t.after (e.rename ρ)) := by
  replace h := h.mono hc
  cases he with
  | @register clock limit faulty id new =>
    show Lags ρ clock.toMillis (s.keep ((s.register limit faulty id clock new).map Prod.snd))
      (t.keep ((t.register limit faulty (ρ id) clock new).map Prod.snd))
    rcases h.register hρ hs.toAligned ht.toAligned limit faulty id clock new with
      ⟨s', t', hx, hy, hlags⟩ | ⟨failure, failure', hx, hy⟩
    · rw [hx, hy]
      exact hlags
    · rw [hx, hy]
      exact h
  | assign desk series document =>
    exact (h.desk_assign hρ hs (Int.le_refl _) desk series document).2.1
  | void desk series number reason =>
    exact (h.desk_void hρ (Int.le_refl _) desk series number reason).2.1
  | bind series number document =>
    show Lags ρ _ (s.keep _) (t.keep _)
    rcases h.bind series number document with ⟨a, s', t', hx, hy, hlags⟩ | ⟨failure, hx, hy⟩
    · rw [hx, hy]
      exact hlags
    · rw [hx, hy]
      exact h
  | @expire clock moment hm =>
    show Lags ρ _ s (t.keep _)
    cases hexpire : t.expire moment with
    | ok r =>
      obtain ⟨_, -, hr⟩ := bind_eq_ok.1 hexpire
      cases hr
      exact h.expire hm
    | error failure => exact h

theorem run (hρ : Function.Injective ρ) {es : List Event} (htimely : ∀ e ∈ es, e.Timely)
    (hclock : es.Pairwise fun e e' => e.clock.toMillis ≤ e'.clock.toMillis)
    (hc : ∀ e ∈ es, e.clock.toMillis ≤ c) :
    Lags ρ c (Store.empty.run (es.filter (! ·.isSweep)))
      (Store.empty.run (es.map (Event.rename ρ))) := by
  induction es using List.reverseRecOn generalizing c with
  | nil => exact empty
  | append_singleton es e ih =>
    obtain ⟨hes, -, hlast⟩ := List.pairwise_append.1 hclock
    have hlags := ih (fun e' he' => htimely e' (List.mem_append_left _ he')) hes
      fun e' he' => hlast e' he' e (List.mem_singleton_self e)
    have hstep := hlags.after hρ (run_coherent _) (run_coherent _) (htimely e (by simp))
      (Int.le_refl _)
    rw [List.filter_append, List.map_append, run_append, run_append]
    refine Lags.mono ?_ (hc e (by simp))
    cases hsweep : e.isSweep <;> simpa [hsweep] using hstep

end Store.Lags

/-! ## With and without sweeps -/

/-- Whoever finds that a series has run out is told of the range that was left behind last. -/
def Store.NamesLastBehind (s : Store) (now : Instant) : Prop :=
  ∀ (d : Desk) series document other id moment,
    (d.assign s now series document).1 = .error (.authorizationExpired other id moment) →
    other = series ∧ ∃ r, s.IsLastBehind series now.toMillis r ∧ r.id = id ∧
      Instant.ofMillis r.expiresAt = .ok moment

/-- At an instant two stores give the same answers, up to the names of ranges: to whoever wants a
folio, counts the available ones or asks for the active range, and whether a range can be registered
or a folio voided.  Of ranges that expired at the same time they may name different ones. -/
structure Store.SameAnswers (ρ : String → String) (now : Instant) (s t : Store) : Prop where
  assign : ∀ (d : Desk) series document,
    AlikeButForTies ρ s now.toMillis series (d.assign s now series document).1
        (d.assign t now series document).1 ∧
      (d.assign t now series document).2.2 = (d.assign s now series document).2.2
  named : s.NamesLastBehind now ∧ t.NamesLastBehind now
  countAvailable : ∀ series,
    t.countAvailable series now.toMillis = s.countAvailable series now.toMillis
  activeRange : ∀ series,
    t.activeRange now series = renameAnswer ρ (RangeRecord.rename ρ) (s.activeRange now series)
  register : ∀ limit faulty id new,
    (t.register limit faulty (ρ id) now new).toOption.map Prod.fst =
      ((s.register limit faulty id now new).toOption.map Prod.fst).map (RangeRecord.rename ρ)
  void : ∀ (d : Desk) series number reason,
    (d.void t now series number reason).1 =
        renameAnswer ρ (Folio.rename ρ) (d.void s now series number reason).1 ∧
      (d.void t now series number reason).2.2 = (d.void s now series number reason).2.2

theorem Store.namesLastBehind (s : Store) (now : Instant) : s.NamesLastBehind now := by
  intro d series document other id moment h
  exact (desk_assign_eq_expired h).2

theorem Store.Lags.sameAnswers {s t : Store} {now : Instant} (hρ : Function.Injective ρ)
    (h : Lags ρ now.toMillis s t) (hs : Coherent s) (ht : Coherent t) : SameAnswers ρ now s t where
  assign d series document := by
    obtain ⟨hanswer, -, htold⟩ := h.desk_assign hρ hs (Int.le_refl _) d series document
    exact ⟨hanswer, htold⟩
  named := ⟨namesLastBehind s now, namesLastBehind t now⟩
  countAvailable series := h.countAvailable hρ (Int.le_refl _) series
  activeRange series := h.activeRange hρ (Int.le_refl _) series
  register limit faulty id new := by
    rcases h.register hρ hs.toAligned ht.toAligned limit faulty id now new with
      ⟨s', t', hx, hy, -⟩ | ⟨failure, failure', hx, hy⟩
    · rw [hx, hy]
      rfl
    · rw [hx, hy]
      rfl
  void d series number reason := by
    obtain ⟨hanswer, -, htold⟩ := h.desk_void hρ (Int.le_refl _) d series number reason
    exact ⟨hanswer, htold⟩

/-- Sweeps that do not run ahead of the clock may be put anywhere into a run in which the clock
never goes back.  Whenever the run is stopped, its answers are those that it gives without the
sweeps, up to the ids that its registrations draw, and up to which of the ranges is named that
expired last at the same time. -/
theorem Store.expiry_lazy_eq_eager_but_for_ties {ρ : String → String} (hρ : Function.Injective ρ)
    {es : List Event} {now : Instant} (htimely : ∀ e ∈ es, e.Timely)
    (hclock : (es.map (·.clock.toMillis) ++ [now.toMillis]).Pairwise (· ≤ ·)) :
    SameAnswers ρ now (Store.empty.run (es.filter (! ·.isSweep)))
      (Store.empty.run (es.map (Event.rename ρ))) := by
  obtain ⟨hes, -, hlast⟩ := List.pairwise_append.1 hclock
  have hlags := Lags.run hρ htimely (List.pairwise_map.1 hes) fun e he =>
    hlast _ (List.mem_map_of_mem he) _ (List.mem_singleton_self _)
  exact hlags.sameAnswers hρ (run_coherent _) (run_coherent _)

open Store in
/-- The lower of two ranges lapses and is swept, and then all its folios are voided. -/
def lapsing : List Event :=
  [⟨earlyAt 0, .register 10 none "low" ⟨⟨"A", "T"⟩, 1, 2, earlyAt 0, earlyAt 10, none, none⟩⟩,
   ⟨earlyAt 0, .register 10 none "high" ⟨⟨"A", "T"⟩, 3, 4, earlyAt 0, earlyAt 50, none, none⟩⟩,
   ⟨earlyAt 20, .expire (earlyAt 15)⟩,
   ⟨earlyAt 20, .void ⟨true, none⟩ ⟨"A", "T"⟩ 1 "lost"⟩,
   ⟨earlyAt 20, .void ⟨true, none⟩ ⟨"A", "T"⟩ 2 "lost"⟩,
   ⟨earlyAt 30, .assign ⟨true, some 1⟩ ⟨"A", "T"⟩ none⟩]

open Store in
/-- Without the sweep the range is exhausted, with it expired; the answers are the same. -/
theorem Store.expiry_lazy_eq_eager_lapsing :
    SameAnswers (Equiv.swap "low" "high") (earlyAt 40)
        (Store.empty.run (lapsing.filter (! ·.isSweep)))
        (Store.empty.run (lapsing.map (Event.rename (Equiv.swap "low" "high")))) ∧
      (Store.empty.run (lapsing.filter (! ·.isSweep))).ranges.map (·.status) =
        [.exhausted, .active] ∧
      (Store.empty.run (lapsing.map (Event.rename (Equiv.swap "low" "high")))).ranges.map
        (·.status) = [.expired, .active] := by
  refine ⟨expiry_lazy_eq_eager_but_for_ties (Equiv.swap "low" "high").injective ?_ (by decide), by decide,
    by decide⟩
  simp only [lapsing, List.forall_mem_cons]
  exact ⟨.register .., .register .., .expire (by decide), .void .., .void .., .assign .., by simp⟩

open Store in
/-- A range lapses and is swept, and then another one with the same expiry is registered. -/
def lapsingTwice : List Event :=
  [⟨earlyAt 0, .register 10 none "R1" ⟨⟨"A", "T"⟩, 1, 2, earlyAt 0, earlyAt 10, none, none⟩⟩,
   ⟨earlyAt 20, .expire (earlyAt 20)⟩,
   ⟨earlyAt 20, .register 10 none "R2" ⟨⟨"A", "T"⟩, 3, 4, earlyAt 0, earlyAt 10, none, none⟩⟩]

/-- Without the sweep the first of the two is named, with it the second. -/
theorem Store.named_range_depends_on_sweep :
    (∀ e ∈ lapsingTwice, e.Timely) ∧
    (lapsingTwice.map (·.clock.toMillis) ++ [(earlyAt 20).toMillis]).Pairwise (· ≤ ·) ∧
    (Desk.assign ⟨false, none⟩ (Store.empty.run (lapsingTwice.filter (! ·.isSweep))) (earlyAt 20)
      ⟨"A", "T"⟩ none).1 = .error (.authorizationExpired ⟨"A", "T"⟩ "R1" (earlyAt 10)) ∧
    (Desk.assign ⟨false, none⟩ (Store.empty.run lapsingTwice) (earlyAt 20) ⟨"A", "T"⟩ none).1 =
      .error (.authorizationExpired ⟨"A", "T"⟩ "R2" (earlyAt 10)) := by
  refine ⟨?_, by decide, by rfl, by rfl⟩
  simp only [lapsingTwice, List.forall_mem_cons]
  exact ⟨.register .., .expire (by decide), .register .., by simp⟩

end FolioLedger
