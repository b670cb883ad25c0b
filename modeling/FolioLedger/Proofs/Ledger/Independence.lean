import FolioLedger.Proofs.Ledger.Numbering
import FolioLedger.Proofs.Ledger.PartOperations
import FolioLedger.Proofs.Time.Instant
import Mathlib.Logic.Equiv.Basic

/-!
# Series are independent

Many series share one store.  In a run of orders each series gets the replies that it would get if no
other series were there, up to the names of ranges: as long as no sweep fails by a range of another
series, and not a step longer (`Store.series_independent`).  A sweep only fails by a range whose times
cannot be read back, since they lie in a leap second at the end of the calendar.
-/

namespace FolioLedger

/-! ## Orders and replies -/

/-- What is asked for one series, or a sweep of all. -/
inductive Order where
  | register (limit : Nat) (faulty : Option Nat) (id : String) (new : NewRange)
  | assign (desk : Desk) (series : Series) (document : Option String)
  | void (desk : Desk) (series : Series) (number : Nat) (reason : String)
  | bind (series : Series) (number : Nat) (document : String)
  | getFolio (series : Series) (number : Nat)
  | countAvailable (series : Series)
  | maxNumber (series : Series)
  | activeRange (series : Series)
  | usageReport (series : Series) (start stop : Instant)
  | expire (moment : Instant)

structure PlacedOrder where
  clock : Instant
  order : Order

inductive Answer where
  | range (answer : Except Failure Range)
  | assignment (answer : Except Failure Assignment)
  | folio (answer : Except Failure Folio)
  | count (n : Nat)
  | number (n : Option Nat)
  | usage (answer : Except Failure UsageReport)
  | ranges (answer : Except Failure (List Range))
deriving DecidableEq

structure Reply where
  answer : Answer
  told : Outbox := {}
deriving DecidableEq

/-- The series that an order is for; a sweep is for all. -/
def Order.series? : Order → Option Series
  | .register _ _ _ new => some new.series
  | .assign _ series _ | .void _ series _ _ | .bind series _ _ | .getFolio series _
  | .countAvailable series | .maxNumber series | .activeRange series
  | .usageReport series _ _ => some series
  | .expire _ => none

def Order.draws? : Order → Option (String × Series)
  | .register _ _ id new => some (id, new.series)
  | _ => none

theorem Order.eq_expire {o : Order} (h : o.series? = none) : ∃ moment, o = .expire moment := by
  cases o with
  | expire moment => exact ⟨moment, rfl⟩
  | _ => cases h

def PlacedOrder.concerns (o : PlacedOrder) (series : Series) : Bool :=
  o.order.series?.all (· = series)

namespace Store

def reply (s : Store) (o : PlacedOrder) : Reply :=
  match o.order with
  | .register limit faulty id new =>
    { answer := .range ((s.register limit faulty id o.clock new).map Prod.fst) }
  | .assign desk series document =>
    let (answer, _, told) := desk.assign s o.clock series document
    ⟨.assignment answer, told⟩
  | .void desk series number reason =>
    let (answer, _, told) := desk.void s o.clock series number reason
    ⟨.folio answer, told⟩
  | .bind series number document =>
    { answer := .folio ((s.bind series number document).map Prod.fst) }
  | .getFolio series number => { answer := .folio (s.getFolio series number) }
  | .countAvailable series => { answer := .count (s.countAvailable series o.clock.toMillis) }
  | .maxNumber series => { answer := .number (s.maxNumber? series) }
  | .activeRange series => { answer := .range (s.activeRange o.clock series) }
  | .usageReport series start stop => { answer := .usage (s.usageReport series start stop) }
  | .expire moment => { answer := .ranges ((s.expire moment).map Prod.fst) }

def serve (s : Store) (o : PlacedOrder) : Store :=
  match o.order with
  | .register limit faulty id new => s.after ⟨o.clock, .register limit faulty id new⟩
  | .assign desk series document => s.after ⟨o.clock, .assign desk series document⟩
  | .void desk series number reason => s.after ⟨o.clock, .void desk series number reason⟩
  | .bind series number document => s.after ⟨o.clock, .bind series number document⟩
  | .expire moment => s.after ⟨o.clock, .expire moment⟩
  | _ => s

def replies : Store → List PlacedOrder → List Reply
  | _, [] => []
  | s, o :: os => s.reply o :: (s.serve o).replies os

end Store

/-- What a series gets of a reply: its share of what a sweep has expired. -/
def Reply.share (series : Series) (r : Reply) : Reply :=
  match r.answer with
  | .ranges answer => { r with answer := .ranges (answer.map (List.filter (·.series = series))) }
  | _ => r

/-- What a series gets of the replies to some orders. -/
def Store.shares (series : Series) : Store → List PlacedOrder → List Reply
  | _, [] => []
  | s, o :: os =>
    if o.concerns series then (s.reply o).share series :: (s.serve o).shares series os
    else (s.serve o).shares series os

/-! ## Other names -/

section

variable (ρ : String → String)

def Answer.rename : Answer → Answer
  | .range answer => .range (renameAnswer ρ (RangeRecord.rename ρ) answer)
  | .assignment answer => .assignment (renameAnswer ρ (Assignment.rename ρ) answer)
  | .folio answer => .folio (renameAnswer ρ (Folio.rename ρ) answer)
  | .usage answer => .usage (renameAnswer ρ (UsageReport.rename ρ) answer)
  | .ranges answer => .ranges (renameAnswer ρ (List.map (RangeRecord.rename ρ)) answer)
  | answer => answer

def Reply.rename (r : Reply) : Reply := { r with answer := r.answer.rename ρ }

/-- Registrations draw other ids. -/
def PlacedOrder.rename (o : PlacedOrder) : PlacedOrder :=
  match o.order with
  | .register limit faulty id new => ⟨o.clock, .register limit faulty (ρ id) new⟩
  | _ => o

end

namespace Store

variable {s t : Store} {series : Series} {ρ : String → String}

theorem Coherent.serve (h : Coherent s) (o : PlacedOrder) : Coherent (s.serve o) := by
  unfold Store.serve
  split
  all_goals first | exact h.after _ | exact h

/-! ## One order -/

/-- An order for the series gets the same reply, and leaves such a pair again. -/
theorem IsPart.serve (hρ : Function.Injective ρ) (h : IsPart ρ series s t) (hs : Aligned s)
    {o : PlacedOrder} (ho : o.order.series? = some series)
    (hid : ∀ x ∈ o.order.draws?, s.Owns x.2 x.1) :
    t.reply (o.rename ρ) = (s.reply o).rename ρ ∧
      IsPart ρ series (s.serve o) (t.serve (o.rename ρ)) := by
  obtain ⟨clock, order⟩ := o
  cases order with
  | register limit faulty id new =>
    obtain rfl := Option.some.inj ho
    have halike := IsPart.register hρ clock h (hid (id, new.series) rfl) limit faulty
    exact ⟨congrArg (Reply.mk · {}) (congrArg Answer.range halike.answer), halike.keep h⟩
  | assign desk series document =>
    obtain rfl := Option.some.inj ho
    obtain ⟨hanswer, hpart, htold⟩ := h.desk_assign hρ hs clock desk document
    exact ⟨congrArg₂ Reply.mk (congrArg Answer.assignment hanswer) htold, hpart⟩
  | void desk series number reason =>
    obtain rfl := Option.some.inj ho
    obtain ⟨hanswer, hpart, htold⟩ := h.desk_void hρ hs clock desk number reason
    exact ⟨congrArg₂ Reply.mk (congrArg Answer.folio hanswer) htold, hpart⟩
  | bind series number document =>
    obtain rfl := Option.some.inj ho
    have halike := h.bind number document
    exact ⟨congrArg (Reply.mk · {}) (congrArg Answer.folio halike.answer), halike.keep h⟩
  | getFolio series number =>
    obtain rfl := Option.some.inj ho
    exact ⟨congrArg (Reply.mk · {}) (congrArg Answer.folio (h.getFolio number)), h⟩
  | countAvailable series =>
    obtain rfl := Option.some.inj ho
    exact ⟨congrArg (Reply.mk · {}) (congrArg Answer.count (h.countAvailable hρ hs)), h⟩
  | maxNumber series =>
    obtain rfl := Option.some.inj ho
    exact ⟨congrArg (Reply.mk · {}) (congrArg Answer.number h.maxNumber?), h⟩
  | activeRange series =>
    obtain rfl := Option.some.inj ho
    exact ⟨congrArg (Reply.mk · {}) (congrArg Answer.range (h.activeRange hρ hs clock)), h⟩
  | usageReport series start stop =>
    obtain rfl := Option.some.inj ho
    exact ⟨congrArg (Reply.mk · {}) (congrArg Answer.usage (h.usageReport hρ hs start stop)), h⟩
  | expire moment => cases ho

/-- An order for another series leaves the part alone. -/
theorem IsPart.serve_other (h : IsPart ρ series s t) (hs : Aligned s) {o : PlacedOrder}
    {other : Series} (ho : o.order.series? = some other) (hother : other ≠ series) :
    IsPart ρ series (s.serve o) t := by
  obtain ⟨clock, order⟩ := o
  cases order with
  | register limit faulty id new =>
    obtain rfl := Option.some.inj ho
    show IsPart ρ series (s.keep ((s.register limit faulty id clock new).map Prod.snd)) t
    cases hregister : s.register limit faulty id clock new with
    | ok res => exact h.register_other hother hregister
    | error failure => exact h
  | assign desk series document =>
    obtain rfl := Option.some.inj ho
    exact h.desk_assign_other hs hother desk document
  | void desk series number reason =>
    obtain rfl := Option.some.inj ho
    exact h.desk_void_other hs hother desk number reason
  | bind series' number document =>
    obtain rfl := Option.some.inj ho
    show IsPart ρ series (s.keep ((s.bind series' number document).map Prod.snd)) t
    cases hbind : s.bind series' number document with
    | ok res => exact h.bind_other hother hbind
    | error failure => exact h
  | getFolio | countAvailable | maxNumber | activeRange | usageReport => exact h
  | expire moment => cases ho

/-- What is told along with an order is about its series. -/
theorem told_of_reply (s : Store) {o : PlacedOrder} :
    (∀ a ∈ (s.reply o).told.alerts, o.order.series? = some a.series) ∧
      ∀ x ∈ (s.reply o).told.triggers, o.order.series? = some x.series := by
  have hexhaustion : ∀ (desk : Desk) series remaining, ∀ a ∈ desk.exhaustion series remaining,
      a.series = series := by
    intro desk series remaining a ha
    unfold Desk.exhaustion at ha
    split at ha
    · rw [List.mem_singleton.1 ha]
      rfl
    · cases ha
  have hlow : ∀ (desk : Desk) now series, ∀ x ∈ desk.lowStock s now series, x.series = series := by
    intro desk now series x hx
    unfold Desk.lowStock at hx
    split at hx
    · split at hx
      · rw [List.mem_singleton.1 hx]
      · cases hx
    · cases hx
  obtain ⟨clock, order⟩ := o
  cases order with
  | assign desk series document =>
    show (∀ a ∈ (desk.assign s clock series document).2.2.alerts, some series = some a.series) ∧
      ∀ x ∈ (desk.assign s clock series document).2.2.triggers, some series = some x.series
    unfold Desk.assign
    cases s.assign clock series document with
    | ok res =>
      exact ⟨fun a ha => congrArg some (hexhaustion desk series _ a ha).symm,
        fun x hx => congrArg some (hlow desk clock series x hx).symm⟩
    | error failure => exact ⟨nofun, fun x hx => congrArg some (hlow desk clock series x hx).symm⟩
  | void desk series number reason =>
    show (∀ a ∈ (desk.void s clock series number reason).2.2.alerts, some series = some a.series) ∧
      ∀ x ∈ (desk.void s clock series number reason).2.2.triggers, some series = some x.series
    unfold Desk.void
    cases s.void clock series number reason with
    | ok res => exact ⟨fun a ha => congrArg some (hexhaustion desk series _ a ha).symm, nofun⟩
    | error failure => exact ⟨nofun, nofun⟩
  | register | bind | getFolio | countAvailable | maxNumber | activeRange | usageReport | expire =>
    exact ⟨nofun, nofun⟩

/-- All of the reply to an order is the share of its series. -/
theorem reply_share (s : Store) {o : PlacedOrder} (ho : o.order.series? = some series) :
    (s.reply o).share series = s.reply o := by
  obtain ⟨clock, order⟩ := o
  cases order with
  | expire moment => cases ho
  | _ => rfl

/-! ## What an order does to the table of ranges -/

/-- Every range of the second store is one of the first, maybe in another status. -/
def Restates (s t : Store) : Prop := ∀ r ∈ t.ranges, ∃ q ∈ s.ranges, r = { q with status := r.status }

namespace Restates

theorem refl (s : Store) : Restates s s := fun r hr => ⟨r, hr, rfl⟩

theorem setFolio (h : Restates s t) (series : Series) (number : Nat) (state : FolioState) :
    Restates s (t.setFolio series number state) := h

theorem setStatus (h : Restates s t) (p : RangeRow → Bool) (status : RangeStatus) :
    Restates s (t.setStatus p status) := by
  intro r hr
  obtain ⟨r', hr', rfl⟩ := mem_setStatus.1 hr
  obtain ⟨q, hq, hq'⟩ := h r' hr'
  refine ⟨q, hq, ?_⟩
  split <;> rw [hq']

theorem settle (h : Restates s t) (id : String) : Restates s (t.settle id) := by
  rw [settle_eq]
  exact h.setStatus _ _

end Restates

/-- An order registers one range, or at most changes the status of some. -/
theorem restates_or_registers (s : Store) (o : PlacedOrder) : Restates s (s.serve o) ∨
    ∃ limit faulty id new, o.order = .register limit faulty id new ∧
      (s.serve o).ranges = s.ranges ++ [new.toRow id o.clock] := by
  obtain ⟨clock, order⟩ := o
  cases order with
  | register limit faulty id new =>
    show Restates s (s.keep ((s.register limit faulty id clock new).map Prod.snd)) ∨ ∃ _ _ _ _, _ ∧
      (s.keep ((s.register limit faulty id clock new).map Prod.snd)).ranges = _
    cases hregister : s.register limit faulty id clock new with
    | error failure => exact .inl (.refl s)
    | ok res =>
      obtain ⟨-, -, hres⟩ := register_eq_ok hregister
      exact .inr ⟨limit, faulty, id, new, rfl, congrArg Store.ranges hres⟩
  | assign desk series document =>
    left
    show Restates s (desk.assign s clock series document).2.1
    rcases desk.assign_handsOut s clock series document with ⟨a, row, -, hout⟩ | ⟨failure, -, hs⟩
    · rw [hout.result]
      exact .settle (.setFolio (.refl s) _ _ _) row.rangeId
    · rw [hs]
      exact .refl s
  | void desk series number reason =>
    left
    show Restates s (desk.void s clock series number reason).2.1
    unfold Desk.void
    cases hvoid : s.void clock series number reason with
    | error failure => exact .refl s
    | ok res =>
      obtain ⟨row, -, -, -, -, hres⟩ := void_eq_ok hvoid
      show Restates s res.2
      rw [hres]
      exact .settle (.setFolio (.refl s) _ _ _) row.rangeId
  | bind series number document =>
    left
    show Restates s (s.keep ((s.bind series number document).map Prod.snd))
    refine keep_snd_of (.refl s) fun _ t hbind => ?_
    rcases bind_eq_ok_cases hbind with rfl | ⟨state, rfl⟩
    · exact .refl t
    · exact .setFolio (.refl s) series number state
  | getFolio | countAvailable | maxNumber | activeRange | usageReport => exact .inl (.refl s)
  | expire moment =>
    left
    show Restates s (s.keep ((s.expire moment).map Prod.snd))
    rw [expire_eq]
    cases (s.expiring moment.toMillis).mapM RangeRecord.toRange with
    | error failure => exact .refl s
    | ok expired => exact (Restates.refl s).setStatus _ .expired

/-! ## Runs -/

/-- Every sweep of a run that fails would fail in the same way on the ranges of the series alone. -/
def Undisturbed (series : Series) : Store → List PlacedOrder → Prop
  | _, [] => True
  | s, o :: os =>
    (∀ moment, o.order = .expire moment → s.FailsBy series moment) ∧ (s.serve o).Undisturbed series os

/-- No order draws an id that another series has. -/
def DrawsOwn (s : Store) (os : List PlacedOrder) : Prop :=
  ∀ o ∈ os, ∀ x ∈ o.order.draws?, s.Owns x.2 x.1

end Store

/-- No two series draw the same id. -/
def DrawApart (os : List PlacedOrder) : Prop :=
  ∀ o ∈ os, ∀ p ∈ os, ∀ x ∈ o.order.draws?, ∀ y ∈ p.order.draws?, x.1 = y.1 → x.2 = y.2

namespace Store

variable {s t : Store} {series : Series} {ρ : String → String}

theorem DrawsOwn.serve {o : PlacedOrder} {os : List PlacedOrder} (h : s.DrawsOwn (o :: os))
    (hapart : DrawApart (o :: os)) : (s.serve o).DrawsOwn os := by
  intro p hp x hx r hr hid
  have hold := h p (List.mem_cons_of_mem _ hp) x hx
  rcases s.restates_or_registers o with hrestates | ⟨limit, faulty, id, new, ho, hranges⟩
  · obtain ⟨q, hq, hrq⟩ := hrestates r hr
    rw [hrq] at hid ⊢
    exact hold q hq hid
  · rw [hranges] at hr
    rcases List.mem_append.1 hr with hr | hr
    · exact hold r hr hid
    · obtain rfl := List.mem_singleton.1 hr
      exact hapart o List.mem_cons_self p (List.mem_cons_of_mem _ hp) (id, new.series)
        (by rw [ho]; rfl) x hx hid

/-- In a run a series gets its shares alike in the whole store and in its part, until a sweep fails by
the range of another series. -/
theorem IsPart.shares_iff (hρ : Function.Injective ρ) (h : IsPart ρ series s t) (hs : Coherent s)
    {os : List PlacedOrder} (hown : s.DrawsOwn os) (hapart : DrawApart os) :
    (s.shares series os).map (Reply.rename ρ) =
        t.replies ((os.filter (·.concerns series)).map (PlacedOrder.rename ρ)) ↔
      s.Undisturbed series os := by
  -- The pair survives every order but a sweep that fails on one side only, and there both lists differ.
  induction os generalizing s t with
  | nil => exact iff_of_true rfl trivial
  | cons o os ih =>
    have hcoherent := hs.serve o
    have hownNext := hown.serve hapart
    have hapartNext : DrawApart os := fun p hp q hq =>
      hapart p (List.mem_cons_of_mem _ hp) q (List.mem_cons_of_mem _ hq)
    cases hseries : o.order.series? with
    | none =>
      obtain ⟨moment, horder⟩ := Order.eq_expire hseries
      obtain ⟨clock, order⟩ := o
      obtain rfl : order = .expire moment := horder
      have hcalm : s.Undisturbed series (⟨clock, .expire moment⟩ :: os) ↔
          s.FailsBy series moment ∧ (s.serve ⟨clock, .expire moment⟩).Undisturbed series os := by
        refine and_congr_left' ⟨fun hfails => hfails moment rfl, fun hfails moment' hmoment => ?_⟩
        cases hmoment
        exact hfails
      have hreply : (((s.reply ⟨clock, .expire moment⟩).share series).rename ρ =
          t.reply ⟨clock, .expire moment⟩) ↔ s.FailsBy series moment := by
        rw [← h.sweep_iff moment]
        exact ⟨fun hr => Answer.ranges.inj (congrArg Reply.answer hr),
          fun hr => congrArg (Reply.mk · {}) (congrArg Answer.ranges hr)⟩
      rw [hcalm, ← hreply]
      show _ :: _ = _ :: _ ↔ _
      rw [List.cons.injEq]
      refine and_congr_right fun hsame => ?_
      exact ih (h.sweep (hreply.1 hsame)) hcoherent hownNext hapartNext
    | some other =>
      have hcalm : (s.Undisturbed series (o :: os)) ↔ (s.serve o).Undisturbed series os := by
        refine and_iff_right fun moment hmoment => ?_
        rw [hmoment] at hseries
        cases hseries
      rw [hcalm]
      by_cases hother : other = series
      · subst hother
        have hconcerns : o.concerns other = true := by simp [PlacedOrder.concerns, hseries]
        obtain ⟨hreply, hnext⟩ := h.serve hρ hs.toAligned hseries (hown o List.mem_cons_self)
        rw [shares, if_pos hconcerns, List.filter_cons_of_pos (by simpa using hconcerns), List.map_cons,
          List.map_cons, replies, reply_share s hseries, hreply, List.cons.injEq, eq_self, true_and]
        exact ih hnext hcoherent hownNext hapartNext
      · have hconcerns : o.concerns series = false := by simp [PlacedOrder.concerns, hseries, hother]
        rw [shares, hconcerns, List.filter_cons_of_neg (by simp [hconcerns])]
        exact ih (h.serve_other hs.toAligned hseries hother) hcoherent hownNext hapartNext

end Store

/-! ## Ranges that can be read back -/

def PlacedOrder.Legible (o : PlacedOrder) : Prop :=
  ∀ limit faulty id new, o.order = .register limit faulty id new →
    new.authorizedAt.Readable ∧ new.expiresAt.Readable ∧ o.clock.Readable

namespace Store

variable {s : Store} {series : Series}

/-- A sweep fails by the ranges of the series alone if those of the others can be read back. -/
theorem failsBy_of_legible (hread : ∀ r ∈ s.ranges, r.series ≠ series → r.Legible) (moment : Instant) :
    s.FailsBy series moment := by
  intro failure h
  have hrows : ∀ r ∈ s.expiring moment.toMillis, decide (r.series = series) = false → r.Legible := by
    intro r hr hseries
    obtain ⟨q, hq, rfl⟩ := List.mem_map.1 hr
    have hlegible := hread q (List.mem_filter.1 hq).1 (of_decide_eq_false hseries)
    exact hlegible.withStatus .expired
  rw [expire_eq] at h
  rw [expire_eq, part_expiring]
  cases hfail : (s.expiring moment.toMillis).mapM RangeRecord.toRange with
  | ok expired =>
    rw [hfail] at h
    cases h
  | error other =>
    rw [hfail] at h
    rw [mapM_filter_of_error hrows hfail]
    exact h

theorem undisturbed_of_legible {os : List PlacedOrder}
    (hread : ∀ r ∈ s.ranges, r.series ≠ series → r.Legible)
    (hlegible : ∀ o ∈ os, o.order.series? ≠ some series → o.Legible) : s.Undisturbed series os := by
  induction os generalizing s with
  | nil => trivial
  | cons o os ih =>
    refine ⟨fun moment _ => failsBy_of_legible hread moment, ih ?_ fun p hp =>
      hlegible p (List.mem_cons_of_mem _ hp)⟩
    intro r hr hseries
    rcases s.restates_or_registers o with hrestates | ⟨limit, faulty, id, new, ho, hranges⟩
    · obtain ⟨q, hq, hrq⟩ := hrestates r hr
      rw [hrq] at hseries ⊢
      exact (hread q hq hseries).withStatus r.status
    · rw [hranges] at hr
      rcases List.mem_append.1 hr with hr | hr
      · exact hread r hr hseries
      · obtain rfl := List.mem_singleton.1 hr
        obtain ⟨hauthorized, hexpires, hclock⟩ := hlegible o List.mem_cons_self
          (by rw [ho]; exact fun heq => hseries (Option.some.inj heq)) limit faulty id new ho
        exact RangeRecord.legible_iff.2 ⟨hauthorized, hexpires, hclock, none, rfl⟩

/-! ## Independence -/

/-- In every run a series gets the replies that it would get by itself, exactly if each sweep that fails
would fail alike on its ranges alone, and so whenever the times of the others can be read back.  Nothing
is told about a series but along with its own orders. -/
theorem series_independent (series : Series) {ρ : String → String} (hρ : Function.Injective ρ)
    {os : List PlacedOrder} (hapart : DrawApart os) :
    ((empty.shares series os).map (Reply.rename ρ) =
        empty.replies ((os.filter (·.concerns series)).map (PlacedOrder.rename ρ)) ↔
      empty.Undisturbed series os) ∧
    ((∀ o ∈ os, o.order.series? ≠ some series → o.Legible) → empty.Undisturbed series os) ∧
    ∀ (s : Store) (o : PlacedOrder),
      (∀ a ∈ (s.reply o).told.alerts, o.order.series? = some a.series) ∧
        ∀ x ∈ (s.reply o).told.triggers, o.order.series? = some x.series := by
  refine ⟨IsPart.empty.shares_iff hρ .empty ?_ hapart, undisturbed_of_legible ?_, fun s o =>
    told_of_reply s⟩
  · intro o _ x _ r hr
    cases hr
  · intro r hr
    cases hr

/-! ## Two series in one store -/

instance (os : List PlacedOrder) : Decidable (DrawApart os) :=
  inferInstanceAs (Decidable (∀ o ∈ os, ∀ p ∈ os, ∀ x ∈ o.order.draws?, ∀ y ∈ p.order.draws?,
    x.1 = y.1 → x.2 = y.2))

/-- Two series, a folio of each that is handed out, and a sweep in between. -/
def sharing : List PlacedOrder :=
  [⟨earlyAt 0, .register 10 none "one" ⟨⟨"A", "T"⟩, 1, 2, earlyAt 0, earlyAt 10, none, none⟩⟩,
   ⟨earlyAt 0, .register 10 none "two" ⟨⟨"B", "T"⟩, 1, 9, earlyAt 0, earlyAt 10, none, none⟩⟩,
   ⟨earlyAt 1, .assign ⟨true, some 1⟩ ⟨"B", "T"⟩ none⟩,
   ⟨earlyAt 1, .assign ⟨true, some 1⟩ ⟨"A", "T"⟩ none⟩,
   ⟨earlyAt 2, .expire (earlyAt 20)⟩,
   ⟨earlyAt 2, .assign ⟨true, some 1⟩ ⟨"A", "T"⟩ none⟩]

/-- The one series gets what it gets by itself, where its range is called otherwise. -/
theorem series_independent_sharing :
    (empty.shares ⟨"A", "T"⟩ sharing).map (Reply.rename (Equiv.swap "one" "other")) =
      empty.replies ((sharing.filter (·.concerns ⟨"A", "T"⟩)).map
        (PlacedOrder.rename (Equiv.swap "one" "other"))) := by
  have hapart : DrawApart sharing := by decide
  obtain ⟨hiff, hcalm, -⟩ :=
    series_independent ⟨"A", "T"⟩ (Equiv.swap "one" "other").injective hapart
  refine hiff.2 (hcalm fun o ho hother limit faulty id new horder => ?_)
  simp only [sharing, List.mem_cons, List.not_mem_nil, or_false] at ho
  rcases ho with rfl | rfl | rfl | rfl | rfl | rfl
  · exact absurd rfl hother
  · cases horder
    exact ⟨⟨_, rfl⟩, ⟨_, rfl⟩, _, rfl⟩
  all_goals cases horder

/-- A range of another series expires in the last leap second. -/
def strayLeap : List PlacedOrder :=
  [⟨earlyAt 2, .register 10 none "R1" ⟨⟨"A", "T"⟩, 1, 5, earlyAt 0, earlyAt 10, none, none⟩⟩,
   ⟨earlyAt 2, .register 10 none "R2" ⟨⟨"B", "T"⟩, 1, 5, earlyAt 0, lastLeap, none, none⟩⟩,
   ⟨earlyAt 2, .expire lastLeap⟩,
   ⟨earlyAt 2, .assign ⟨true, none⟩ ⟨"A", "T"⟩ none⟩]

/-- By itself the series has its range expired by the sweep.  Beside the other one the sweep fails, and a
folio is handed out after it, whatever the ranges are called. -/
theorem sweep_fails_by_other_series :
    (∃ a told, (empty.shares ⟨"A", "T"⟩ strayLeap).getLast? = some ⟨.assignment (.ok a), told⟩ ∧
      a.folio.number = 1) ∧
    (∃ told, (empty.replies (strayLeap.filter (·.concerns ⟨"A", "T"⟩))).getLast? =
      some ⟨.assignment (.error (.authorizationExpired ⟨"A", "T"⟩ "R1" (earlyAt 10))), told⟩) ∧
    ∀ ρ : String → String, (empty.shares ⟨"A", "T"⟩ strayLeap).map (Reply.rename ρ) ≠
      empty.replies (strayLeap.filter (·.concerns ⟨"A", "T"⟩)) := by
  have hbeside : ∃ a told, (empty.shares ⟨"A", "T"⟩ strayLeap).getLast? =
      some ⟨.assignment (.ok a), told⟩ ∧ a.folio.number = 1 := ⟨_, _, rfl, rfl⟩
  have halone : ∃ told, (empty.replies (strayLeap.filter (·.concerns ⟨"A", "T"⟩))).getLast? =
      some ⟨.assignment (.error (.authorizationExpired ⟨"A", "T"⟩ "R1" (earlyAt 10))), told⟩ :=
    ⟨_, rfl⟩
  refine ⟨hbeside, halone, fun ρ hsame => ?_⟩
  obtain ⟨a, told, ha, -⟩ := hbeside
  obtain ⟨told', he⟩ := halone
  rw [← hsame, List.getLast?_map, ha] at he
  cases he

end Store

end FolioLedger
