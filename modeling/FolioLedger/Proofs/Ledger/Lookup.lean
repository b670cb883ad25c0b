import FolioLedger.Store.Assign
import FolioLedger.Store.Expiry
import FolioLedger.Store.Register
import Mathlib.Data.List.Induction

/-!
# Looking up rows

What the look-ups of a store find, in terms of the rows that are there: the least and the greatest
number of some rows, the latest of some ranges, the stock of a range, the ranges that are live at an
instant, and the folios that can be handed out.  A change of a row in place keeps its key, so membership
in a changed table is membership in the old one.
-/

namespace FolioLedger

@[simp] theorem FolioRow.isAvailable_iff {f : FolioRow} :
    f.isAvailable = true ↔ f.state = .available := by
  simp [FolioRow.isAvailable]

theorem FolioState.status_eq_available {st : FolioState} :
    st.status = .available ↔ st = .available := by
  cases st <;> simp [FolioState.status]

/-! ## The first of the best -/

/-- A row takes the place of the best one so far only if it is better. -/
def firstBest {α : Type} (better : α → α → Prop) [DecidableRel better] :
    Option α → α → Option α
  | none, a => some a
  | some b, a => if better a b then some a else some b

section

variable {α : Type} {better : α → α → Prop} [DecidableRel better]

theorem foldl_firstBest_eq_none {rows : List α} :
    rows.foldl (firstBest better) none = none ↔ rows = [] := by
  induction rows using List.reverseRecOn with
  | nil => simp
  | append_singleton rows a ih =>
    rw [List.foldl_append, List.foldl_cons, List.foldl_nil]
    cases rows.foldl (firstBest better) none with
    | none => simp [firstBest]
    | some b =>
      simp only [firstBest]
      split <;> simp

variable (better) in
/-- The first of the best rows is one of them, and none is better. -/
theorem foldl_firstBest_eq_some (irrefl : ∀ a, ¬ better a a)
    (trans : ∀ a b c, better a b → better b c → better a c) {rows : List α} {f : α}
    (h : rows.foldl (firstBest better) none = some f) : f ∈ rows ∧ ∀ g ∈ rows, ¬ better g f := by
  induction rows using List.reverseRecOn generalizing f with
  | nil => cases h
  | append_singleton rows a ih =>
    rw [List.foldl_append, List.foldl_cons, List.foldl_nil] at h
    simp only [List.mem_append, List.mem_singleton]
    cases hb : rows.foldl (firstBest better) none with
    | none =>
      rw [hb] at h
      obtain rfl : a = f := Option.some.inj h
      simp [foldl_firstBest_eq_none.1 hb, irrefl]
    | some b =>
      obtain ⟨hmem, hbest⟩ := ih hb
      simp only [hb, firstBest] at h
      split at h
      · next hbetter =>
        obtain rfl : a = f := Option.some.inj h
        refine ⟨.inr rfl, ?_⟩
        rintro g (hg | rfl)
        · exact fun hlt => hbest g hg (trans g a b hlt hbetter)
        · exact irrefl g
      · next hworse =>
        obtain rfl : b = f := Option.some.inj h
        refine ⟨.inl hmem, ?_⟩
        rintro g (hg | rfl)
        · exact hbest g hg
        · exact hworse

variable (better) in
/-- The first of the best rows comes before every other one that is as good. -/
theorem foldl_firstBest_sublist (irrefl : ∀ a, ¬ better a a)
    (trans : ∀ a b c, better a b → better b c → better a c)
    (between : ∀ a b c, better a b → better a c ∨ better c b) {rows : List α} {f g : α}
    (h : rows.foldl (firstBest better) none = some f) (hg : g ∈ rows) (hne : g ≠ f)
    (hfg : ¬ better f g) : [f, g].Sublist rows := by
  induction rows using List.reverseRecOn generalizing f with
  | nil => cases h
  | append_singleton rows a ih =>
    rw [List.foldl_append, List.foldl_cons, List.foldl_nil] at h
    rw [List.mem_append, List.mem_singleton] at hg
    cases hb : rows.foldl (firstBest better) none with
    | none =>
      rw [hb] at h
      obtain rfl : a = f := Option.some.inj h
      rw [foldl_firstBest_eq_none.1 hb] at hg
      exact absurd (hg.resolve_left List.not_mem_nil) hne
    | some b =>
      obtain ⟨hmem, hbest⟩ := foldl_firstBest_eq_some better irrefl trans hb
      simp only [hb, firstBest] at h
      split at h
      · next hbetter =>
        obtain rfl : a = f := Option.some.inj h
        exact absurd (between a b g hbetter)
          (not_or.2 ⟨hfg, hbest g (hg.resolve_right hne)⟩)
      · obtain rfl : b = f := Option.some.inj h
        rcases hg with hg | rfl
        · exact (ih hb hg hne hfg).trans (List.sublist_append_left ..)
        · exact (List.singleton_sublist.2 hmem).append (List.Sublist.refl [g])

variable (better) in
/-- Renaming rows does not change which is the first of the best, if it keeps their order. -/
theorem foldl_firstBest_map (f : α → α) (hf : ∀ a b, better (f a) (f b) ↔ better a b)
    (rows : List α) : (rows.map f).foldl (firstBest better) none =
      (rows.foldl (firstBest better) none).map f := by
  rw [List.foldl_map]
  show rows.foldl _ (Option.map f none) = _
  refine List.foldl_hom (Option.map f) fun best a => ?_
  cases best with
  | none => rfl
  | some b =>
    simp only [firstBest, Option.map_some, hf]
    split <;> rfl

end

/-! ## Least and greatest numbers -/

theorem leastNumber_eq (rows : List FolioRow) :
    leastNumber rows = rows.foldl (firstBest fun f b => f.number < b.number) none := by
  unfold leastNumber
  congr
  funext best f
  cases best <;> rfl

theorem leastNumber_eq_none {rows : List FolioRow} : leastNumber rows = none ↔ rows = [] := by
  rw [leastNumber_eq, foldl_firstBest_eq_none]

/-- The row with the least number is one of the rows, and none has a lesser number. -/
theorem leastNumber_eq_some {rows : List FolioRow} {f : FolioRow}
    (h : leastNumber rows = some f) : f ∈ rows ∧ ∀ g ∈ rows, f.number ≤ g.number := by
  rw [leastNumber_eq] at h
  obtain ⟨hmem, hbest⟩ := foldl_firstBest_eq_some (fun f b : FolioRow => f.number < b.number)
    (fun f => Nat.lt_irrefl f.number) (fun _ _ _ => Nat.lt_trans) h
  exact ⟨hmem, fun g hg => Nat.not_lt.1 (hbest g hg)⟩

theorem greatest_append (numbers : List Nat) (n : Nat) :
    greatest (numbers ++ [n]) = some (max n ((greatest numbers).getD 0)) := by
  simp [greatest]

theorem greatest_eq_none {numbers : List Nat} : greatest numbers = none ↔ numbers = [] := by
  induction numbers using List.reverseRecOn with
  | nil => simp [greatest]
  | append_singleton numbers n => simp [greatest_append]

theorem greatest_mem {numbers : List Nat} {m : Nat} (h : greatest numbers = some m) :
    m ∈ numbers := by
  induction numbers using List.reverseRecOn generalizing m with
  | nil => cases h
  | append_singleton numbers k ih =>
    rw [greatest_append] at h
    obtain rfl := Option.some.inj h
    cases hb : greatest numbers with
    | none => simp
    | some b =>
      rcases Nat.le_total b k with hle | hle
      · simp [hle]
      · simp [hle, ih hb]

theorem le_greatest {numbers : List Nat} {m n : Nat} (h : greatest numbers = some m)
    (hn : n ∈ numbers) : n ≤ m := by
  induction numbers using List.reverseRecOn generalizing m with
  | nil => cases hn
  | append_singleton numbers k ih =>
    rw [greatest_append] at h
    obtain rfl := Option.some.inj h
    rcases List.mem_append.1 hn with hn | hn
    · cases hb : greatest numbers with
      | none => rw [greatest_eq_none.1 hb] at hn; cases hn
      | some b => exact Nat.le_trans (ih hb hn) (Nat.le_max_right ..)
    · obtain rfl := List.mem_singleton.1 hn
      exact Nat.le_max_left ..

namespace Store

/-! ## The latest of some ranges -/

theorem latestExpiry_eq (rows : List RangeRow) :
    latestExpiry rows = rows.foldl (firstBest fun r b => b.expiresAt < r.expiresAt) none := by
  unfold latestExpiry
  congr
  funext best r
  cases best <;> rfl

theorem latestAuthorization_eq (rows : List RangeRow) : latestAuthorization rows =
    rows.foldl (firstBest fun r b => b.authorizedAt < r.authorizedAt) none := by
  unfold latestAuthorization
  congr
  funext best r
  cases best <;> rfl

theorem latestExpiry_eq_none {rows : List RangeRow} : latestExpiry rows = none ↔ rows = [] := by
  rw [latestExpiry_eq, foldl_firstBest_eq_none]

theorem latestExpiry_eq_some {rows : List RangeRow} {r : RangeRow} (h : latestExpiry rows = some r) :
    r ∈ rows ∧ ∀ q ∈ rows, q.expiresAt ≤ r.expiresAt := by
  rw [latestExpiry_eq] at h
  obtain ⟨hmem, hbest⟩ := foldl_firstBest_eq_some
    (fun r b : RangeRow => b.expiresAt < r.expiresAt) (fun r => Int.lt_irrefl r.expiresAt)
    (fun _ _ _ hab hbc => Int.lt_trans hbc hab) h
  exact ⟨hmem, fun q hq => Int.not_lt.1 (hbest q hq)⟩

/-- Of the ranges that expire last it is the first. -/
theorem latestExpiry_sublist {rows : List RangeRow} {r q : RangeRow} (h : latestExpiry rows = some r)
    (hq : q ∈ rows) (hne : q ≠ r) (hsame : q.expiresAt = r.expiresAt) : [r, q].Sublist rows := by
  rw [latestExpiry_eq] at h
  refine foldl_firstBest_sublist (fun r b : RangeRow => b.expiresAt < r.expiresAt)
    (fun r => Int.lt_irrefl r.expiresAt) (fun _ _ _ hab hbc => Int.lt_trans hbc hab)
    (fun a b c hab => ?_) h hq hne (by simp [hsame])
  rcases Int.lt_or_le c.expiresAt a.expiresAt with hc | hc
  · exact .inl hc
  · exact .inr (Int.lt_of_lt_of_le hab hc)

theorem latestAuthorization_eq_none {rows : List RangeRow} :
    latestAuthorization rows = none ↔ rows = [] := by
  rw [latestAuthorization_eq, foldl_firstBest_eq_none]

theorem latestAuthorization_mem {rows : List RangeRow} {r : RangeRow}
    (h : latestAuthorization rows = some r) : r ∈ rows := by
  rw [latestAuthorization_eq] at h
  exact (foldl_firstBest_eq_some (fun r b : RangeRow => b.authorizedAt < r.authorizedAt)
    (fun r => Int.lt_irrefl r.authorizedAt) (fun _ _ _ hab hbc => Int.lt_trans hbc hab) h).1

/-! ## Membership -/

@[simp] theorem empty_ranges : Store.empty.ranges = [] := rfl

@[simp] theorem empty_folios : Store.empty.folios = [] := rfl

theorem mem_foliosOf {s : Store} {series : Series} {f : FolioRow} :
    f ∈ s.foliosOf series ↔ f ∈ s.folios ∧ f.series = series := by
  simp [foliosOf]

theorem isLive_iff {s : Store} {id : String} {now : Millis} :
    s.isLive id now = true ↔
      ∃ r ∈ s.ranges, r.id = id ∧ r.status = .active ∧ now < r.expiresAt := by
  simp [isLive]

theorem isDue_iff {r : RangeRow} {now : Millis} :
    isDue r now = true ↔ r.status = .active ∧ r.expiresAt ≤ now := by
  simp [isDue]

theorem hasStock_iff {s : Store} {id : String} :
    s.hasStock id = true ↔ ∃ f ∈ s.folios, f.rangeId = id ∧ f.state = .available := by
  simp [hasStock]

/-- A folio can be handed out if it is available and its range is live. -/
theorem mem_assignable {s : Store} {series : Series} {now : Millis} {f : FolioRow} :
    f ∈ s.assignable series now ↔
      f ∈ s.folios ∧ f.series = series ∧ f.state = .available ∧ s.isLive f.rangeId now = true := by
  simp [assignable, mem_foliosOf, and_assoc]

theorem folio?_eq_some {s : Store} {series : Series} {number : Nat} {f : FolioRow}
    (h : s.folio? series number = some f) :
    f ∈ s.folios ∧ f.series = series ∧ f.number = number := by
  have hf := List.find?_some h
  simp only [decide_eq_true_eq] at hf
  exact ⟨List.mem_of_find?_eq_some h, hf⟩

/-! ## Changes in place -/

@[simp] theorem settle_folios (s : Store) (id : String) : (s.settle id).folios = s.folios := by
  unfold settle
  split <;> rfl

/-- Settling is a change of status that meets active ranges without stock only. -/
theorem settle_eq (s : Store) (id : String) :
    s.settle id =
      s.setStatus (fun r => r.id = id ∧ r.status = .active ∧ s.hasStock id = false) .exhausted := by
  unfold settle
  cases h : s.hasStock id <;> simp [setStatus]

theorem mem_setFolio {s : Store} {series : Series} {number : Nat} {st : FolioState}
    {f' : FolioRow} :
    f' ∈ (s.setFolio series number st).folios ↔
      ∃ f ∈ s.folios, f' = if f.series = series ∧ f.number = number then { f with state := st }
        else f := by
  simp only [setFolio, List.mem_map, eq_comm]

theorem mem_setStatus {s : Store} {p : RangeRow → Bool} {status : RangeStatus} {r' : RangeRow} :
    r' ∈ (s.setStatus p status).ranges ↔
      ∃ r ∈ s.ranges, r' = if p r then { r with status := status } else r := by
  simp only [setStatus, List.mem_map, eq_comm]

end Store

end FolioLedger
