import FolioLedger.Proofs.Ledger.Run

/-!
# Names of ranges

Ids of ranges are drawn anew in each run, so two runs can agree up to the names of ranges only.
`rename ρ` puts `ρ id` in the place of each range id: in rows, in documents, in failures, and in
what a registration draws.  Reading a row and looking for the least number commute with it.
-/

namespace FolioLedger

variable (ρ : String → String)

def FolioRow.rename (f : FolioRow) : FolioRow := { f with rangeId := ρ f.rangeId }

def Folio.rename (f : Folio) : Folio := { f with rangeId := ρ f.rangeId }

def RangeRecord.rename {Time : Type} (r : RangeRecord Time) : RangeRecord Time :=
  { r with id := ρ r.id }

def Assignment.rename (a : Assignment) : Assignment := { a with folio := a.folio.rename ρ }

/-- Failures name ranges that stand in the way, have expired or are not there. -/
def Failure.rename : Failure → Failure
  | .rangeOverlap series first last existing => .rangeOverlap series first last (ρ existing)
  | .authorizationExpired series rangeId expiredAt =>
    .authorizationExpired series (ρ rangeId) expiredAt
  | .notFound (.range id) => .notFound (.range (ρ id))
  | failure => failure

/-- Registrations draw other ids. -/
def Event.rename (e : Event) : Event :=
  match e.call with
  | .register limit faulty id new => ⟨e.clock, .register limit faulty (ρ id) new⟩
  | _ => e

/-- An answer in which ranges have other names. -/
def renameAnswer {α : Type} (rename : α → α) : Except Failure α → Except Failure α
  | .ok a => .ok (rename a)
  | .error failure => .error (failure.rename ρ)

@[simp] theorem renameAnswer_ok {α : Type} (rename : α → α) (a : α) :
    renameAnswer ρ rename (.ok a) = .ok (rename a) := rfl

@[simp] theorem renameAnswer_error {α : Type} (rename : α → α) (failure : Failure) :
    renameAnswer ρ rename (.error failure) = .error (failure.rename ρ) := rfl

@[simp] theorem NewRange.rename_toRange (new : NewRange) (id : String) (now : Instant) :
    (new.toRange id now).rename ρ = new.toRange (ρ id) now := rfl

@[simp] theorem NewRange.map_rename_folios (new : NewRange) (id : String) :
    (new.folios id).map (FolioRow.rename ρ) = new.folios (ρ id) := by
  simp [folios, FolioRow.rename]

/-! ## Reading -/

/-- Whether it fails or not, the answer names no range. -/
def Nameless {α : Type} (x : Except Failure α) : Prop :=
  ∀ failure, x = .error failure → failure.rename ρ = failure

theorem Instant.nameless_ofMillis (ms : Millis) : Nameless ρ (Instant.ofMillis ms) := by
  intro failure h
  unfold Instant.ofMillis at h
  split at h
  · cases h
  · cases h
    rfl

theorem Instant.nameless_mapM_ofMillis (ms : Option Millis) :
    Nameless ρ (ms.mapM Instant.ofMillis) := by
  intro failure h
  cases ms with
  | none => cases h
  | some ms =>
    cases hms : Instant.ofMillis ms with
    | ok t =>
      rw [Option.mapM_some, hms] at h
      cases h
    | error other =>
      rw [Option.mapM_some, hms] at h
      obtain rfl : other = failure := by simpa using h
      exact Instant.nameless_ofMillis ρ ms other hms

theorem nameless_ok {α : Type} (a : α) : Nameless ρ (.ok a) := by
  intro failure h
  cases h

variable {ρ} in
theorem Nameless.bind {α β : Type} {x : Except Failure α} {f : α → Except Failure β}
    (hx : Nameless ρ x) (hf : ∀ a, Nameless ρ (f a)) : Nameless ρ (x >>= f) := by
  cases x with
  | ok a => exact hf a
  | error failure =>
    rintro _ ⟨rfl⟩
    exact hx failure rfl

variable {ρ} in
theorem Nameless.mapM {α β : Type} {g : α → Except Failure β} (hg : ∀ a, Nameless ρ (g a))
    (rows : List α) : Nameless ρ (rows.mapM g) := by
  induction rows with
  | nil => exact nameless_ok ρ []
  | cons a rows ih =>
    rw [List.mapM_cons]
    exact (hg a).bind fun _ => ih.bind fun _ => nameless_ok ρ _

theorem RangeRecord.nameless_toRange (r : RangeRow) : Nameless ρ r.toRange := by
  unfold toRange
  exact (Instant.nameless_ofMillis ρ _).bind fun _ => (Instant.nameless_ofMillis ρ _).bind fun _ =>
    (Instant.nameless_ofMillis ρ _).bind fun _ => (Instant.nameless_mapM_ofMillis ρ _).bind fun _ =>
      nameless_ok ρ _

theorem renameAnswer_bind {α β : Type} {rename : β → β} {x : Except Failure α}
    {f : α → Except Failure β} (h : Nameless ρ x) :
    renameAnswer ρ rename (x >>= f) = x >>= fun a => renameAnswer ρ rename (f a) := by
  cases x with
  | ok a => rfl
  | error failure => exact congrArg Except.error (h failure rfl)

theorem FolioRow.toFolio_rename (f : FolioRow) :
    (f.rename ρ).toFolio = renameAnswer ρ (Folio.rename ρ) f.toFolio := by
  unfold toFolio
  rw [renameAnswer_bind ρ (Instant.nameless_mapM_ofMillis ρ _)]
  refine bind_congr fun usedAt => ?_
  rw [renameAnswer_bind ρ (Instant.nameless_mapM_ofMillis ρ _)]
  rfl

theorem RangeRecord.toRange_rename (r : RangeRow) :
    (r.rename ρ).toRange = renameAnswer ρ (RangeRecord.rename ρ) r.toRange := by
  unfold toRange
  rw [renameAnswer_bind ρ (Instant.nameless_ofMillis ρ _)]
  refine bind_congr fun authorizedAt => ?_
  rw [renameAnswer_bind ρ (Instant.nameless_ofMillis ρ _)]
  refine bind_congr fun expiresAt => ?_
  rw [renameAnswer_bind ρ (Instant.nameless_ofMillis ρ _)]
  refine bind_congr fun registeredAt => ?_
  rw [renameAnswer_bind ρ (Instant.nameless_mapM_ofMillis ρ _)]
  rfl

theorem leastNumber_map_rename (rows : List FolioRow) :
    leastNumber (rows.map (FolioRow.rename ρ)) = (leastNumber rows).map (FolioRow.rename ρ) := by
  rw [leastNumber_eq, leastNumber_eq]
  exact foldl_firstBest_map (fun f b : FolioRow => f.number < b.number) (FolioRow.rename ρ)
    (fun _ _ => Iff.rfl) rows

theorem Store.latestExpiry_map_rename (rows : List RangeRow) :
    latestExpiry (rows.map (RangeRecord.rename ρ)) =
      (latestExpiry rows).map (RangeRecord.rename ρ) := by
  rw [latestExpiry_eq, latestExpiry_eq]
  exact foldl_firstBest_map (fun r b : RangeRow => b.expiresAt < r.expiresAt)
    (RangeRecord.rename ρ) (fun _ _ => Iff.rfl) rows

theorem Store.latestAuthorization_map_rename (rows : List RangeRow) :
    latestAuthorization (rows.map (RangeRecord.rename ρ)) =
      (latestAuthorization rows).map (RangeRecord.rename ρ) := by
  rw [latestAuthorization_eq, latestAuthorization_eq]
  exact foldl_firstBest_map (fun r b : RangeRow => b.authorizedAt < r.authorizedAt)
    (RangeRecord.rename ρ) (fun _ _ => Iff.rfl) rows

/-! ## Operations on two stores -/

/-- Both operations fail alike, or succeed alike and leave stores that are related. -/
def AlikeBy {α : Type} (R : Store → Store → Prop) (rename : α → α)
    (x y : Except Failure (α × Store)) : Prop :=
  (∃ a s t, x = .ok (a, s) ∧ y = .ok (rename a, t) ∧ R s t) ∨
    ∃ failure, x = .error failure ∧ y = .error (failure.rename ρ)

variable {ρ} {R : Store → Store → Prop}

theorem AlikeBy.answer {α : Type} {rename : α → α} {x y : Except Failure (α × Store)}
    (h : AlikeBy ρ R rename x y) : y.map Prod.fst = renameAnswer ρ rename (x.map Prod.fst) := by
  rcases h with ⟨a, s, t, rfl, rfl, -⟩ | ⟨failure, rfl, rfl⟩ <;> rfl

theorem AlikeBy.keep {α : Type} {rename : α → α} {x y : Except Failure (α × Store)} {s t : Store}
    (h : AlikeBy ρ R rename x y) (hst : R s t) :
    R (s.keep (x.map Prod.snd)) (t.keep (y.map Prod.snd)) := by
  rcases h with ⟨a, s, t, rfl, rfl, hst'⟩ | ⟨failure, rfl, rfl⟩
  · exact hst'
  · exact hst

/-- Reading a row and going on with its document. -/
theorem AlikeBy.toFolio_bind {α : Type} {rename : α → α} (row : FolioRow)
    {f g : Folio → Except Failure (α × Store)}
    (h : ∀ folio, AlikeBy ρ R rename (f folio) (g (folio.rename ρ))) :
    AlikeBy ρ R rename (row.toFolio >>= f) ((row.rename ρ).toFolio >>= g) := by
  rw [row.toFolio_rename ρ]
  cases row.toFolio with
  | ok folio => exact h folio
  | error failure => exact .inr ⟨failure, rfl, rfl⟩

/-- Both may begin with a check that names no range. -/
theorem AlikeBy.check_bind {α : Type} {rename : α → α} {x : Except Failure Unit}
    {f g : Unit → Except Failure (α × Store)} (hx : Nameless ρ x)
    (h : AlikeBy ρ R rename (f ()) (g ())) : AlikeBy ρ R rename (x >>= f) (x >>= g) := by
  cases x with
  | ok => exact h
  | error failure => exact .inr ⟨failure, rfl, congrArg Except.error (hx failure rfl).symm⟩

theorem nameless_checkNumber (n : Nat) : Nameless ρ (checkNumber n) := by
  intro failure h
  unfold checkNumber at h
  split at h
  · cases h
    rfl
  · cases h

section

variable {s t : Store} {series : Series} {now : Instant} {number : Nat}

theorem Store.assign_alikeBy
    (hassignable : t.assignable series now.toMillis =
      (s.assignable series now.toMillis).map (FolioRow.rename ρ))
    (hshortage : s.assignable series now.toMillis = [] →
      t.shortage series now.toMillis = (s.shortage series now.toMillis).rename ρ)
    (hspent : ∀ row ∈ s.assignable series now.toMillis, ∀ state,
      (t.setFolio series row.number state).isSpent (ρ row.rangeId) =
        (s.setFolio series row.number state).isSpent row.rangeId)
    (htaken : ∀ row ∈ s.assignable series now.toMillis, ∀ state,
      R ((s.setFolio series row.number state).settle row.rangeId)
        ((t.setFolio series row.number state).settle (ρ row.rangeId)))
    (hcount : ∀ s' t', R s' t' →
      t'.countAvailable series now.toMillis = s'.countAvailable series now.toMillis)
    (document : Option String) :
    AlikeBy ρ R (Assignment.rename ρ) (s.assign now series document)
      (t.assign now series document) := by
  simp only [assign]
  rw [hassignable, leastNumber_map_rename]
  cases hrow : leastNumber (s.assignable series now.toMillis) with
  | none => exact .inr ⟨_, rfl, congrArg Except.error (hshortage (leastNumber_eq_none.1 hrow))⟩
  | some row =>
  have hmem := (leastNumber_eq_some hrow).1
  refine AlikeBy.toFolio_bind { row with state := .used now.toMillis document }
    fun folio => .inl ⟨_, _, _, rfl, ?_, htaken row hmem (.used now.toMillis document)⟩
  simp only [Assignment.rename, ← hspent row hmem, ← hcount _ _ (htaken row hmem _)]
  rfl

theorem Store.void_alikeBy
    (hfolio : t.folio? series number = (s.folio? series number).map (FolioRow.rename ρ))
    (htaken : ∀ row, s.folio? series number = some row → ∀ state,
      R ((s.setFolio series number state).settle row.rangeId)
        ((t.setFolio series number state).settle (ρ row.rangeId)))
    (hcount : ∀ s' t', R s' t' →
      t'.countAvailable series now.toMillis = s'.countAvailable series now.toMillis)
    (reason : String) :
    AlikeBy ρ R (fun res => (res.1.rename ρ, res.2)) (s.void now series number reason)
      (t.void now series number reason) := by
  unfold void
  by_cases hreason : isBlank reason
  · rw [if_pos hreason, if_pos hreason]
    exact .inr ⟨_, rfl, rfl⟩
  rw [if_neg hreason, if_neg hreason]
  refine .check_bind (nameless_checkNumber number) ?_
  simp only [hfolio]
  cases hrow : s.folio? series number with
  | none => exact .inr ⟨_, rfl, rfl⟩
  | some row =>
  simp only [Option.map_some]
  have hav : (row.rename ρ).isAvailable = row.isAvailable := rfl
  rw [hav]
  by_cases hstate : row.isAvailable
  · rw [if_neg (not_not.2 hstate), if_neg (not_not.2 hstate)]
    have hsettled := htaken row hrow (.void now.toMillis reason)
    refine AlikeBy.toFolio_bind { row with state := .void now.toMillis reason }
      fun folio => .inl ⟨_, _, _, rfl, ?_, hsettled⟩
    simp only [← hcount _ _ hsettled]
    rfl
  · rw [if_pos hstate, if_pos hstate]
    exact .inr ⟨_, rfl, rfl⟩

theorem Store.bind_alikeBy
    (hfolio : t.folio? series number = (s.folio? series number).map (FolioRow.rename ρ))
    (hset : ∀ state, R (s.setFolio series number state) (t.setFolio series number state))
    (hsame : R s t) (document : String) :
    AlikeBy ρ R (Folio.rename ρ) (s.bind series number document) (t.bind series number document) := by
  unfold Store.bind
  refine .check_bind (nameless_checkNumber number) ?_
  simp only [hfolio]
  cases s.folio? series number with
  | none => exact .inr ⟨_, rfl, rfl⟩
  | some row =>
  refine AlikeBy.toFolio_bind row fun folio => ?_
  obtain ⟨_, _, _, state⟩ := row
  cases state with
  | available => exact .inr ⟨_, rfl, rfl⟩
  | void since reason => exact .inr ⟨_, rfl, rfl⟩
  | used since bound =>
  cases bound with
  | none => exact .inl ⟨_, _, _, rfl, rfl, hset _⟩
  | some bound =>
    simp only [FolioRow.rename]
    by_cases hbound : bound = document
    · rw [if_pos hbound, if_pos hbound]
      exact .inl ⟨_, _, _, rfl, rfl, hsame⟩
    · rw [if_neg hbound, if_neg hbound]
      exact .inr ⟨_, rfl, rfl⟩

/-- What the desk tells depends on the answer and on the stock. -/
theorem Desk.assign_alikeBy (d : Desk) {document : Option String} (hsame : R s t)
    (hcount : t.countAvailable series now.toMillis = s.countAvailable series now.toMillis)
    (h : AlikeBy ρ R (Assignment.rename ρ) (s.assign now series document)
      (t.assign now series document)) :
    (d.assign t now series document).1 =
        renameAnswer ρ (Assignment.rename ρ) (d.assign s now series document).1 ∧
      R (d.assign s now series document).2.1 (d.assign t now series document).2.1 ∧
      (d.assign t now series document).2.2 = (d.assign s now series document).2.2 := by
  have hlow : d.lowStock t now series = d.lowStock s now series := by
    unfold lowStock
    rw [hcount]
  unfold assign
  rw [hlow]
  rcases h with ⟨a, s', t', hx, hy, hrel⟩ | ⟨failure, hx, hy⟩
  · rw [hx, hy]
    exact ⟨rfl, hrel, rfl⟩
  · rw [hx, hy]
    exact ⟨rfl, hsame, rfl⟩

theorem Desk.void_alikeBy (d : Desk) {reason : String} (hsame : R s t)
    (h : AlikeBy ρ R (fun res : Folio × Nat => (res.1.rename ρ, res.2))
      (s.void now series number reason) (t.void now series number reason)) :
    (d.void t now series number reason).1 =
        renameAnswer ρ (Folio.rename ρ) (d.void s now series number reason).1 ∧
      R (d.void s now series number reason).2.1 (d.void t now series number reason).2.1 ∧
      (d.void t now series number reason).2.2 = (d.void s now series number reason).2.2 := by
  unfold void
  rcases h with ⟨a, s', t', hx, hy, hrel⟩ | ⟨failure, hx, hy⟩
  · rw [hx, hy]
    exact ⟨rfl, hrel, rfl⟩
  · rw [hx, hy]
    exact ⟨rfl, hsame, rfl⟩

end

end FolioLedger
