import FolioLedger.Proofs.Ledger.Numbering
import FolioLedger.Proofs.Locks.Rows

/-!
# Fencing

The history of locks over a run: which leases were granted, renewed and given back (`Store.journal`),
and from it the lease that stands for each lock, the last one granted as long as nobody gave it back
(`Lock.standing`).  After each operation the rows of the table say what the journal says
(`Store.Keeps.after`), so the journal decides who is reported as the holder, whose lease can be renewed
and who finds a lock busy (`fencing_sound`).
-/

namespace FolioLedger

open Relation

namespace Lock

/-- What is noted of an operation on a lock. -/
inductive Entry where
  | granted (lease : Lease)
  | renewed (lease : Lease)
  | released (lease : Lease)
deriving DecidableEq

/-- The lease that is granted for a lock, if the entry grants one. -/
def Entry.grant? (key : String) : Entry → Option Lease
  | granted lease => if lease.key = key then some lease else none
  | renewed _ | released _ => none

/-- The leases that were granted for a lock, in order. -/
def grants (journal : List Entry) (key : String) : List Lease :=
  journal.filterMap (Entry.grant? key)

/-- The lease that stands after an entry: the one granted now, or the one that stood before with a
new deadline, unless it is given back. -/
def Entry.follow (key : String) (standing : Option Lease) : Entry → Option Lease
  | granted lease => if lease.key = key then some lease else standing
  | renewed lease =>
    if lease.key = key then standing.map ({ · with deadline := lease.deadline }) else standing
  | released lease => standing.filter fun held => ¬ (lease.key = key ∧ held.token = lease.token)

/-- The lease that stands for a lock. -/
def standing (journal : List Entry) (key : String) : Option Lease :=
  journal.foldl (Entry.follow key) none

/-- A lease was granted, and later given back or overtaken by another grant. -/
def Over (journal : List Entry) (lease : Lease) : Prop :=
  ∃ before g after, journal = before ++ .granted g :: after ∧ g.key = lease.key ∧
    g.token = lease.token ∧
    ((∃ l, .released l ∈ after ∧ l.key = lease.key ∧ l.token = lease.token) ∨
      ∃ g', .granted g' ∈ after ∧ g'.key = lease.key)

/-- A lease stands for a lock and its deadline has not passed. -/
def Live (journal : List Entry) (now : Instant) (key : String) (held : Lease) : Prop :=
  standing journal key = some held ∧ now.toMillis ≤ held.deadline.toMillis

variable {j : List Entry} {x : Entry} {key : String}

theorem grants_append (j : List Entry) (x : Entry) (key : String) :
    grants (j ++ [x]) key = grants j key ++ (x.grant? key).toList := by
  unfold grants
  rw [List.filterMap_append]
  cases h : x.grant? key <;> simp [h]

theorem standing_append (j : List Entry) (x : Entry) (key : String) :
    standing (j ++ [x]) key = x.follow key (standing j key) := by
  unfold standing
  rw [List.foldl_append]
  rfl

theorem mem_grants {g : Lease} (h : .granted g ∈ j) : g ∈ grants j g.key := by
  unfold grants
  exact List.mem_filterMap.2 ⟨_, h, by simp [Entry.grant?]⟩

/-- The lease that stands is granted now, or it stood before and is not given back. -/
theorem Entry.follow_eq_some {before : Option Lease} {held : Lease}
    (h : x.follow key before = some held) : x = .granted held ∧ held.key = key ∨
      ∃ old, before = some old ∧ old.token = held.token ∧ x.grant? key = none ∧
        ∀ l, x = .released l → ¬ (l.key = key ∧ held.token = l.token) := by
  cases x with
  | granted lease =>
    by_cases hkey : lease.key = key
    · simp only [follow, hkey, if_true] at h
      obtain rfl := Option.some.inj h
      exact .inl ⟨rfl, hkey⟩
    · simp only [follow, hkey, if_false] at h
      exact .inr ⟨held, h, rfl, if_neg hkey, fun l hl => by cases hl⟩
  | renewed lease =>
    by_cases hkey : lease.key = key
    · simp only [follow, hkey, if_true] at h
      obtain ⟨old, hold, rfl⟩ := Option.map_eq_some_iff.1 h
      exact .inr ⟨old, hold, rfl, rfl, fun l hl => by cases hl⟩
    · simp only [follow, hkey, if_false] at h
      exact .inr ⟨held, h, rfl, rfl, fun l hl => by cases hl⟩
  | released lease =>
    obtain ⟨hold, hspared⟩ := Option.filter_eq_some_iff.1 h
    refine .inr ⟨held, hold, rfl, rfl, fun l hl => ?_⟩
    cases hl
    exact of_decide_eq_true hspared

/-- A lease that is over was granted before the last entry, which ends it unless it was over already. -/
theorem Over.of_append {lease : Lease} (h : Over (j ++ [x]) lease) :
    lease.token ∈ (grants j lease.key).map (·.token) ∧
      (Over j lease ∨ (∃ l, x = .released l ∧ l.key = lease.key ∧ l.token = lease.token) ∨
        ∃ g, x = .granted g ∧ g.key = lease.key) := by
  obtain ⟨before, g, after, hsplit, hkey, htoken, hover⟩ := h
  obtain rfl | ⟨after, y, rfl⟩ := after.eq_nil_or_concat'
  · simp at hover
  have hends : j ++ [x] = (before ++ .granted g :: after) ++ [y] := by simpa using hsplit
  obtain ⟨rfl, hlast⟩ := List.append_inj' hends rfl
  obtain rfl := (List.cons.inj hlast).1
  refine ⟨htoken ▸ List.mem_map_of_mem (hkey ▸ mem_grants (by simp)), ?_⟩
  rcases hover with ⟨l, hl, hlkey, hltoken⟩ | ⟨g', hg', hgkey⟩
  · rcases List.mem_append.1 hl with hmem | hmem
    · exact .inl ⟨before, g, after, rfl, hkey, htoken, .inl ⟨l, hmem, hlkey, hltoken⟩⟩
    · exact .inr (.inl ⟨l, (List.mem_singleton.1 hmem).symm, hlkey, hltoken⟩)
  · rcases List.mem_append.1 hg' with hmem | hmem
    · exact .inl ⟨before, g, after, rfl, hkey, htoken, .inr ⟨g', hmem, hgkey⟩⟩
    · exact .inr (.inr ⟨g', (List.mem_singleton.1 hmem).symm, hgkey⟩)

/-- A lease that is over does not stand, as long as tokens tell the leases of a lock apart. -/
theorem Over.ne_of_standing {lease held : Lease} (h : Over j lease)
    (hfresh : ((grants j lease.key).map (·.token)).Nodup)
    (hstands : standing j lease.key = some held) : held.token ≠ lease.token := by
  induction j using List.reverseRecOn generalizing held with
  | nil =>
    obtain ⟨before, g, after, hnil, -⟩ := h
    simp at hnil
  | append_singleton j x ih =>
    obtain ⟨hgranted, hover⟩ := h.of_append
    rw [grants_append, List.map_append, List.nodup_append] at hfresh
    obtain ⟨hfresh, -, hapart⟩ := hfresh
    rw [standing_append] at hstands
    rcases Entry.follow_eq_some hstands with ⟨rfl, hkey⟩ | ⟨old, hold, htoken, hnone, hspared⟩
    · exact Ne.symm (hapart _ hgranted held.token (by simp [Entry.grant?, hkey]))
    · rcases hover with hover | ⟨l, rfl, hlkey, hltoken⟩ | ⟨g, rfl, hgkey⟩
      · exact htoken ▸ ih hover hfresh hold
      · exact fun heq => hspared l rfl ⟨hlkey, heq.trans hltoken.symm⟩
      · simp [Entry.grant?, hgkey] at hnone

end Lock

/-! ## Runs -/

/-- Calls of the lock service itself. -/
def Call.isLocking : Call → Bool
  | .acquire .. | .renew .. | .release _ => true
  | _ => false

/-- For how long a call takes or renews a lock. -/
def Call.ttl? : Call → Option Nat
  | .acquire ttl _ _ => some ttl
  | .renew ttl _ => some ttl
  | _ => none

/-- A run in which locks are taken, renewed and given back one by one.  Whatever else happens touches
no lock. -/
structure Lock.Orderly (es : List Event) : Prop where
  plain : ∀ e ∈ es, e.call.isLocking = true ∨ e.call.tokens = []
  late : ∀ e ∈ es, 0 < e.clock.toMillis
  fresh : (es.flatMap (·.call.drawn)).Nodup
  timely : ∀ e ∈ es, ∀ ttl, e.call.ttl? = some ttl →
    ∃ t, Instant.ofMillis (Lock.deadline e.clock.toMillis ttl) = .ok t

theorem Lock.Orderly.of_append {es fs : List Event} (h : Orderly (es ++ fs)) : Orderly es where
  plain e he := h.plain e (List.mem_append_left _ he)
  late e he := h.late e (List.mem_append_left _ he)
  fresh := by
    have hfresh := h.fresh
    rw [List.flatMap_append, List.nodup_append] at hfresh
    exact hfresh.1
  timely e he := h.timely e (List.mem_append_left _ he)

namespace Store

open Lock

/-- What is noted of an event. -/
def noted? (s : Store) (e : Event) : Option Entry :=
  match e.call with
  | .acquire ttl token key =>
    match (s.acquire e.clock ttl token key).1 with
    | .ok lease => some (.granted lease)
    | .error _ => none
  | .renew ttl lease =>
    match (s.renew e.clock ttl lease).1 with
    | .ok lease => some (.renewed lease)
    | .error _ => none
  | .release lease => some (.released lease)
  | _ => none

/-- What is noted of the events of a run. -/
def journal : Store → List Event → List Entry
  | _, [] => []
  | s, e :: es => (s.noted? e).toList ++ (s.after e).journal es

theorem journal_append (s : Store) (es fs : List Event) :
    s.journal (es ++ fs) = s.journal es ++ (s.run es).journal fs := by
  induction es generalizing s with
  | nil => rfl
  | cons e es ih => simp [journal, ih]

theorem drawn_of_granted {s : Store} {e : Event} {lease : Lease}
    (h : s.noted? e = some (.granted lease)) : e.call.drawn = [lease.token] := by
  obtain ⟨clock, call⟩ := e
  cases call with
  | acquire ttl token key =>
    simp only [noted?] at h
    split at h
    · next granted hres =>
      cases h
      have htoken : lease.token = token := token_of_acquire (Prod.ext hres rfl)
      rw [htoken]
      rfl
    · cases h
  | renew ttl shown =>
    simp only [noted?] at h
    split at h <;> cases h
  | _ => cases h

/-- The tokens of leases were drawn, in the order in which the leases were granted. -/
theorem grants_tokens (s : Store) (es : List Event) (key : String) :
    ((grants (s.journal es) key).map (·.token)).Sublist (es.flatMap (·.call.drawn)) := by
  induction es generalizing s with
  | nil => exact List.Sublist.refl []
  | cons e es ih =>
    have hfirst : ((grants (s.noted? e).toList key).map (·.token)).Sublist e.call.drawn := by
      cases hentry : s.noted? e with
      | none => simp [grants]
      | some x =>
        cases x with
        | granted lease =>
          rw [drawn_of_granted hentry]
          by_cases hkey : lease.key = key <;> simp [grants, Entry.grant?, hkey]
        | renewed lease => exact List.nil_sublist _
        | released lease => exact List.nil_sublist _
    have hsplit : grants (s.journal (e :: es)) key =
        grants (s.noted? e).toList key ++ grants ((s.after e).journal es) key :=
      List.filterMap_append
    rw [hsplit, List.map_append, List.flatMap_cons]
    exact hfirst.append (ih (s.after e))

/-- A lease is that of the last grant, with a deadline that its row can keep and give back. -/
structure LastOf (gs : List Lease) (held : Lease) : Prop where
  last : ∃ g, gs.getLast? = some g ∧ held = { g with deadline := held.deadline }
  late : 0 < held.deadline.toMillis
  readable : Instant.ofMillis held.deadline.toMillis = .ok held.deadline

theorem LastOf.redate {gs : List Lease} {held : Lease} {t : Instant} (h : LastOf gs held)
    (hpos : 0 < t.toMillis) (hread : Instant.ofMillis t.toMillis = .ok t) :
    LastOf gs { held with deadline := t } := by
  obtain ⟨g, hlast, hsame⟩ := h.last
  exact ⟨⟨g, hlast, by rw [hsame]⟩, hpos, hread⟩

/-- The table says what the journal says: a row for each lock that was ever granted, with the token
and the number of the last grant and the deadline of the lease that stands. -/
structure Keeps (s : Store) (j : List Entry) : Prop where
  apart : s.LocksApart
  rows : ∀ key, s.lock? key = (grants j key).getLast?.map fun g =>
    ⟨key, g.token, g.fencing, ((standing j key).map (·.deadline.toMillis)).getD 0⟩
  stands : ∀ key held, standing j key = some held → LastOf (grants j key) held
  keyed : ∀ key, ∀ g ∈ grants j key, g.key = key
  numbered : ∀ key, (grants j key).map (·.fencing) = List.range' 1 (grants j key).length

variable {s : Store} {j : List Entry} {now : Instant} {ttl : Nat} {t : Instant}
  {token key : String} {lease : Lease}

theorem Keeps.empty : Keeps Store.empty [] where
  apart := .empty
  rows _ := rfl
  stands _ _ h := by cases h
  keyed _ _ h := by cases h
  numbered _ := rfl

namespace Keeps

theorem fencing_of_last (h : s.Keeps j) {g : Lease} (hlast : (grants j key).getLast? = some g) :
    g.fencing = (grants j key).length := by
  have hnumber : ((grants j key).map (·.fencing)).getLast? = some g.fencing := by
    rw [List.getLast?_map, hlast]
    rfl
  rw [h.numbered key] at hnumber
  obtain ⟨before, hbefore⟩ : ∃ n, (grants j key).length = n + 1 := by
    cases hgrants : grants j key with
    | nil =>
      rw [hgrants] at hlast
      cases hlast
    | cons g' gs => exact ⟨gs.length, rfl⟩
  rw [hbefore, List.range'_1_concat, List.getLast?_append] at hnumber
  have hsame : 1 + before = g.fencing := by simpa using hnumber
  omega

/-- A row that is found is of the last grant. -/
theorem of_row (h : s.Keeps j) {row : LockRow} (hrow : s.lock? key = some row) :
    ∃ g, (grants j key).getLast? = some g ∧ row.token = g.token ∧ row.fencing = g.fencing ∧
      row.deadline = ((standing j key).map (·.deadline.toMillis)).getD 0 := by
  rw [h.rows key] at hrow
  obtain ⟨g, hlast, rfl⟩ := Option.map_eq_some_iff.1 hrow
  exact ⟨g, hlast, rfl, rfl, rfl⟩

theorem row_eq (h : s.Keeps j) {row : LockRow} (hrow : s.lock? key = some row) :
    { row with deadline := ((standing j key).map (·.deadline.toMillis)).getD 0 } = row := by
  obtain ⟨-, -, -, -, hdeadline⟩ := h.of_row hrow
  rw [← hdeadline]

theorem token_of_row (h : s.Keeps j) {row : LockRow} {held : Lease} (hrow : s.lock? key = some row)
    (hstands : standing j key = some held) : row.token = held.token := by
  obtain ⟨g, hlast, htoken, -⟩ := h.of_row hrow
  obtain ⟨g', hlast', hheld⟩ := (h.stands key held hstands).last
  obtain rfl : g = g' := Option.some.inj (hlast.symm.trans hlast')
  rw [htoken, hheld]

theorem of_standing (h : s.Keeps j) {held : Lease} (hstands : standing j key = some held) :
    s.lock? key = some ⟨key, held.token, held.fencing, held.deadline.toMillis⟩ ∧
      held.key = key := by
  obtain ⟨g, hlast, hheld⟩ := (h.stands key held hstands).last
  have hkey : g.key = key := h.keyed key g (List.mem_of_getLast? hlast)
  rw [h.rows key, hlast, hstands]
  rw [hheld]
  exact ⟨rfl, hkey⟩

/-- A row whose deadline has not passed is of the lease that stands. -/
theorem standing_of_row (h : s.Keeps j) {row : LockRow} (hrow : s.lock? key = some row)
    (hpos : 0 < row.deadline) : ∃ held, standing j key = some held ∧ held.token = row.token ∧
      held.deadline.toMillis = row.deadline := by
  obtain ⟨-, -, -, -, hdeadline⟩ := h.of_row hrow
  cases hstands : standing j key with
  | none =>
    rw [hstands] at hdeadline
    have hzero : row.deadline = 0 := hdeadline
    rw [hzero] at hpos
    exact absurd hpos (by decide)
  | some held =>
    rw [hstands] at hdeadline
    exact ⟨held, rfl, (h.token_of_row hrow hstands).symm, hdeadline.symm⟩

theorem grant (h : s.Keeps j) (hpos : 0 < t.toMillis)
    (hread : Instant.ofMillis t.toMillis = .ok t) {fencing : Nat}
    (hfencing : fencing = (grants j key).length + 1) :
    (s.putLock ⟨key, token, fencing, t.toMillis⟩).Keeps
      (j ++ [.granted ⟨key, token, fencing, t⟩]) := by
  have hgrants : ∀ key', grants (j ++ [.granted ⟨key, token, fencing, t⟩]) key' =
      if key = key' then grants j key' ++ [⟨key, token, fencing, t⟩] else grants j key' := by
    intro key'
    rw [grants_append]
    by_cases hkey : key = key' <;> simp [Entry.grant?, hkey]
  have hstanding : ∀ key', standing (j ++ [.granted ⟨key, token, fencing, t⟩]) key' =
      if key = key' then some ⟨key, token, fencing, t⟩ else standing j key' :=
    fun key' => standing_append ..
  constructor
  · exact h.apart.putLock _
  · intro key'
    rw [lock?_putLock, hgrants, hstanding]
    by_cases hkey : key = key'
    · subst hkey
      simp
    · simp only [hkey, if_false]
      exact h.rows key'
  · intro key' held hstands
    rw [hstanding] at hstands
    rw [hgrants]
    by_cases hkey : key = key'
    · rw [if_pos hkey] at hstands ⊢
      obtain rfl := Option.some.inj hstands
      exact ⟨⟨⟨key, token, fencing, t⟩, by simp, rfl⟩, hpos, hread⟩
    · rw [if_neg hkey] at hstands ⊢
      exact h.stands key' held hstands
  · intro key' g hg
    rw [hgrants] at hg
    by_cases hkey : key = key'
    · rw [if_pos hkey] at hg
      rcases List.mem_append.1 hg with hold | hnew
      · exact h.keyed key' g hold
      · obtain rfl := List.mem_singleton.1 hnew
        exact hkey
    · rw [if_neg hkey] at hg
      exact h.keyed key' g hg
  · intro key'
    rw [hgrants]
    by_cases hkey : key = key'
    · subst hkey
      rw [if_pos rfl, List.map_append, h.numbered, List.length_append, List.length_singleton,
        List.range'_1_concat, hfencing]
      simp [Nat.add_comm]
    · rw [if_neg hkey]
      exact h.numbered key'

theorem acquire (h : s.Keeps j) (token key : String) (hnow : 0 < now.toMillis)
    (ht : Instant.ofMillis (Lock.deadline now.toMillis ttl) = .ok t) :
    ((s.acquire now ttl token key).2 = s ∧
        (s.acquire now ttl token key).1 = .error (.lockBusy key)) ∨
      ∃ lease, (s.acquire now ttl token key).1 = .ok lease ∧
        (s.acquire now ttl token key).2.Keeps (j ++ [.granted lease]) := by
  rcases s.acquire_cases now ttl token key with ⟨fencing, hbefore, hres⟩ | ⟨-, hres⟩
  · have htime := Instant.toMillis_of_ofMillis ht
    have hfencing : fencing = (grants j key).length + 1 := by
      rcases hbefore with ⟨hnone, rfl⟩ | ⟨row, hrow, -, rfl⟩
      · rw [h.rows key, Option.map_eq_none_iff, List.getLast?_eq_none_iff] at hnone
        rw [hnone]
        rfl
      · obtain ⟨g, hlast, -, hnumber, -⟩ := h.of_row hrow
        rw [hnumber, h.fencing_of_last hlast]
    have hpos : 0 < t.toMillis := by
      rw [htime]
      exact Lock.deadline_pos hnow ttl
    refine .inr ⟨⟨key, token, fencing, t⟩, ?_, ?_⟩
    · rw [hres, ht]
      rfl
    · rw [hres, ← htime]
      exact h.grant hpos (by rw [htime, ht]) hfencing
  · rw [hres]
    exact .inl ⟨rfl, rfl⟩

/-- An entry that grants nothing changes deadlines only. -/
theorem redate {t : Store} {x : Entry} (h : s.Keeps j) (hx : ∀ key, x.grant? key = none)
    (hapart : t.LocksApart) (hrows : ∀ key row, s.lock? key = some row → t.lock? key = some
      { row with deadline :=
        ((x.follow key (standing j key)).map (·.deadline.toMillis)).getD 0 })
    (hnone : ∀ key, s.lock? key = none → t.lock? key = none)
    (hstands : ∀ key held, x.follow key (standing j key) = some held →
      LastOf (grants j key) held) : t.Keeps (j ++ [x]) := by
  have hgrants : ∀ key, grants (j ++ [x]) key = grants j key := by
    intro key
    rw [grants_append, hx key]
    exact List.append_nil _
  constructor
  · exact hapart
  · intro key
    rw [hgrants, standing_append]
    have hrow := h.rows key
    cases hlast : (grants j key).getLast? with
    | none =>
      rw [hlast] at hrow
      exact hnone key hrow
    | some g =>
      rw [hlast] at hrow
      exact hrows key _ hrow
  · intro key held hheld
    rw [standing_append] at hheld
    rw [hgrants]
    exact hstands key held hheld
  · intro key g hg
    rw [hgrants] at hg
    exact h.keyed key g hg
  · intro key
    rw [hgrants]
    exact h.numbered key

theorem renew (h : s.Keeps j) (lease : Lease) (hnow : 0 < now.toMillis)
    (ht : Instant.ofMillis (Lock.deadline now.toMillis ttl) = .ok t) :
    s.renew now ttl lease = (.error (.lockLost lease.key), s) ∨
      ∃ lease', (s.renew now ttl lease).1 = .ok lease' ∧
        (s.renew now ttl lease).2.Keeps (j ++ [.renewed lease']) := by
  rcases renew_cases h.apart now ttl lease with ⟨⟨row, hrow, -, hle⟩, hres, hrows⟩ | ⟨-, hres⟩
  swap
  · exact .inl hres
  have htime := Instant.toMillis_of_ofMillis ht
  have hpos : 0 < t.toMillis := by
    rw [htime]
    exact Lock.deadline_pos hnow ttl
  obtain ⟨held, hstands, -, -⟩ := h.standing_of_row hrow (Int.lt_of_lt_of_le hnow hle)
  refine .inr ⟨{ lease with deadline := t }, by rw [hres, ht]; rfl, ?_⟩
  refine h.redate (fun _ => rfl) (renew_apart h.apart now ttl lease) ?_ ?_ ?_
  · intro key r hr
    obtain ⟨-, hkey⟩ := lock?_eq_some hr
    rw [hrows, hr, Option.map_some]
    by_cases hsame : r.key = lease.key
    · rw [if_pos hsame]
      simp [Entry.follow, ← hkey, hsame, hstands, htime]
    · have hother : lease.key ≠ key := fun hc => hsame (hkey.trans hc.symm)
      rw [if_neg hsame, Entry.follow, if_neg hother, h.row_eq hr]
  · intro key hnone
    rw [hrows, hnone]
    rfl
  · intro key held hheld
    by_cases hkey : lease.key = key
    · simp only [Entry.follow, hkey, if_true] at hheld
      obtain ⟨old, hold, rfl⟩ := Option.map_eq_some_iff.1 hheld
      exact (h.stands key old hold).redate hpos (by rw [htime, ht])
    · simp only [Entry.follow, hkey, if_false] at hheld
      exact h.stands key held hheld

theorem release (h : s.Keeps j) (lease : Lease) :
    (s.release lease).Keeps (j ++ [.released lease]) := by
  refine h.redate (fun _ => rfl) (release_apart h.apart lease) ?_ ?_ ?_
  · intro key r hr
    obtain ⟨-, hkey⟩ := lock?_eq_some hr
    have hrow := h.row_eq hr
    rw [lock?_release, hr, Option.map_some]
    cases hstands : standing j key with
    | none =>
      rw [hstands] at hrow
      split
      · rfl
      · exact congrArg some hrow.symm
    | some held =>
      have hheld := h.token_of_row hr hstands
      rw [hstands] at hrow
      have hsame : lease.key = key ∧ held.token = lease.token ↔
          r.key = lease.key ∧ r.token = lease.token := by
        rw [hkey, hheld]
        exact and_congr_left' eq_comm
      rw [Entry.follow, Option.filter_some]
      by_cases hmine : r.key = lease.key ∧ r.token = lease.token
      · rw [if_pos hmine, if_neg (by simp [hsame.2 hmine])]
        rfl
      · rw [if_neg hmine, if_pos (decide_eq_true (mt hsame.1 hmine))]
        exact congrArg some hrow.symm
  · intro key hnone
    rw [lock?_release, hnone]
    rfl
  · intro key held hheld
    exact h.stands key held (Option.filter_eq_some_iff.1 hheld).1

theorem of_locks {t : Store} (h : s.Keeps j) (hlocks : t.locks = s.locks) : t.Keeps j := by
  have hlock : ∀ key, t.lock? key = s.lock? key := by
    intro key
    unfold lock?
    rw [hlocks]
  refine ⟨?_, fun key => (hlock key).trans (h.rows key), h.stands, h.keyed, h.numbered⟩
  unfold LocksApart
  rw [hlocks]
  exact h.apart

theorem after {e : Event} (h : s.Keeps j) (hplain : e.call.isLocking = true ∨ e.call.tokens = [])
    (hlate : 0 < e.clock.toMillis) (htimely : ∀ ttl, e.call.ttl? = some ttl →
      ∃ t, Instant.ofMillis (Lock.deadline e.clock.toMillis ttl) = .ok t) :
    (s.after e).Keeps (j ++ (s.noted? e).toList) := by
  obtain ⟨clock, call⟩ := e
  cases call with
  | acquire ttl token key =>
    obtain ⟨t, ht⟩ := htimely ttl rfl
    simp only [Store.after, noted?]
    rcases h.acquire token key hlate ht with ⟨hsame, hbusy⟩ | ⟨lease, hlease, hkeeps⟩
    · rw [hsame, hbusy]
      simpa using h
    · rw [hlease]
      exact hkeeps
  | renew ttl lease =>
    obtain ⟨t, ht⟩ := htimely ttl rfl
    simp only [Store.after, noted?]
    rcases h.renew lease hlate ht with hlost | ⟨lease', hlease, hkeeps⟩
    · rw [hlost]
      simpa using h
    · rw [hlease]
      exact hkeeps
  | release lease => exact h.release lease
  | _ =>
    have hnone := hplain.resolve_left (by simp [Call.isLocking])
    have hkeeps := h.of_locks (s.locks_after_of_nil (e := ⟨clock, _⟩) hnone)
    simpa [noted?] using hkeeps

theorem run {es : List Event} (h : Orderly es) :
    (Store.empty.run es).Keeps (Store.empty.journal es) := by
  induction es using List.reverseRecOn with
  | nil => exact .empty
  | append_singleton es e ih =>
    have hbefore := ih h.of_append
    rw [run_append, journal_append]
    have hmem : e ∈ es ++ [e] := by simp
    have hafter := hbefore.after (h.plain e hmem) (h.late e hmem) (h.timely e hmem)
    simpa [journal] using hafter

theorem renewable_iff (h : s.Keeps j) (hnow : 0 < now.toMillis) :
    s.Renewable now lease ↔ ∃ held, Live j now lease.key held ∧ held.token = lease.token := by
  constructor
  · rintro ⟨row, hrow, htoken, hle⟩
    obtain ⟨held, hstands, hsame, hdeadline⟩ :=
      h.standing_of_row hrow (Int.lt_of_lt_of_le hnow hle)
    exact ⟨held, ⟨hstands, by rw [hdeadline]; exact hle⟩, hsame.trans htoken⟩
  · rintro ⟨held, ⟨hstands, hle⟩, htoken⟩
    exact ⟨_, (h.of_standing hstands).1, htoken, hle⟩

theorem holder_of_live (h : s.Keeps j) {held : Lease} (hlive : Live j now key held) :
    s.holder now key = .ok (some held) := by
  obtain ⟨hstands, hle⟩ := hlive
  obtain ⟨hrow, hkey⟩ := h.of_standing hstands
  obtain ⟨-, hpos, hread⟩ := h.stands key held hstands
  have hlends : s.Lends held := ⟨by rw [hkey, hrow], hpos, hread⟩
  exact hkey ▸ hlends.held now hle

theorem holder_of_not_live (h : s.Keeps j) (hnobody : ∀ held, ¬ Live j now key held) :
    s.holder now key = .ok none := by
  cases hrow : s.lock? key with
  | none =>
    unfold Store.holder
    rw [hrow]
  | some row =>
    apply holder_of_expired hrow
    obtain ⟨-, -, -, -, hdeadline⟩ := h.of_row hrow
    unfold Lock.isExpired
    cases hstands : standing j key with
    | none =>
      rw [hstands] at hdeadline
      simpa using .inl hdeadline
    | some held =>
      rw [hstands] at hdeadline
      have hlate : row.deadline < now.toMillis := by
        rw [hdeadline]
        exact Int.not_le.1 fun hle => hnobody held ⟨hstands, hle⟩
      simpa using .inr hlate

/-- The lease that is reported is the one that stands, until its deadline. -/
theorem holder (h : s.Keeps j) (now : Instant) (key : String) :
    ∃ reported, s.holder now key = .ok reported ∧
      ∀ held, reported = some held ↔ Live j now key held := by
  by_cases hlive : ∃ held, Live j now key held
  · obtain ⟨held, hlive⟩ := hlive
    refine ⟨some held, h.holder_of_live hlive, fun held' => ?_⟩
    constructor
    · intro hsame
      exact Option.some.inj hsame ▸ hlive
    · intro hlive'
      exact hlive.1.symm.trans hlive'.1
  · refine ⟨none, h.holder_of_not_live fun held hheld => hlive ⟨held, hheld⟩, fun held => ?_⟩
    constructor
    · intro hc
      cases hc
    · exact fun hheld => absurd ⟨held, hheld⟩ hlive

theorem busy (h : s.Keeps j) {held : Lease} (hlive : Live j now key held) (ttl : Nat)
    (token : String) : s.acquire now ttl token key = (.error (.lockBusy key), s) := by
  obtain ⟨hstands, hle⟩ := hlive
  have hrow := (h.of_standing hstands).1
  have hheld := Lock.isExpired_eq_false (h.stands key held hstands).late hle
  rcases s.acquire_cases now ttl token key with ⟨fencing, ⟨hnone, -⟩ | ⟨row, hrow', hexpired, -⟩, -⟩ |
    ⟨-, hres⟩
  · rw [hrow] at hnone
    cases hnone
  · obtain rfl := Option.some.inj (hrow.symm.trans hrow')
    rw [hheld] at hexpired
    cases hexpired
  · exact hres

/-- Giving back a lease that does not stand changes nothing. -/
theorem release_eq (h : s.Keeps j)
    (hover : ∀ held, standing j lease.key = some held → held.token ≠ lease.token) :
    s.release lease = s := by
  unfold Store.release
  have hsame : s.locks.map (fun r => if r.key = lease.key ∧ r.token = lease.token then
      { r with deadline := 0 } else r) = s.locks := by
    rw [List.map_congr_left (g := id), List.map_id]
    intro row hmem
    have hrow := lock?_of_mem h.apart hmem
    by_cases hmine : row.key = lease.key ∧ row.token = lease.token
    · -- The row is past its lease already.
      rw [if_pos hmine]
      obtain ⟨hkey, htoken⟩ := hmine
      obtain ⟨-, -, -, -, hdeadline⟩ := h.of_row hrow
      rw [hkey] at hrow hdeadline
      cases hstands : standing j lease.key with
      | none =>
        rw [hstands] at hdeadline
        have hzero : row.deadline = 0 := hdeadline
        rw [← hzero]
        rfl
      | some held =>
        obtain rfl := Option.some.inj (hrow.symm.trans (h.of_standing hstands).1)
        exact absurd htoken (hover held hstands)
    · rw [if_neg hmine]
      rfl
  rw [hsame]

end Keeps

/-! ## What a run guarantees -/

/-- What the history of a lock says about the table. -/
structure Fenced (s : Store) (j : List Entry) (key : String) : Prop where
  /-- The leases of a lock are numbered from one on. -/
  numbered : (grants j key).map (·.fencing) = List.range' 1 (grants j key).length
  /-- Only the lease that was granted last stands. -/
  last : ∀ held, standing j key = some held →
    ∃ g, (grants j key).getLast? = some g ∧ held = { g with deadline := held.deadline }
  /-- It is the one that is reported. -/
  reported : ∀ now, ∃ reported, s.holder now key = .ok reported ∧
    ∀ held, reported = some held ↔ Live j now key held
  /-- It is the one that can be renewed. -/
  renewed : ∀ (now : Instant) (ttl : Nat) (t : Instant) (lease : Lease), 0 < now.toMillis →
    lease.key = key → Instant.ofMillis (Lock.deadline now.toMillis ttl) = .ok t →
    ((∃ held, Live j now key held ∧ held.token = lease.token) ∧
        (s.renew now ttl lease).1 = .ok { lease with deadline := t }) ∨
      ((∀ held, Live j now key held → held.token ≠ lease.token) ∧
        s.renew now ttl lease = (.error (.lockLost key), s))
  /-- While it lasts nobody else gets the lock. -/
  busy : ∀ (now : Instant) (ttl : Nat) (token : String) (held : Lease), Live j now key held →
    s.acquire now ttl token key = (.error (.lockBusy key), s)
  /-- A lease that was given back or overtaken is never renewed, and giving it back changes nothing. -/
  ended : ∀ lease, lease.key = key → Over j lease → s.release lease = s ∧
    ∀ (now : Instant) (ttl : Nat), 0 < now.toMillis →
      s.renew now ttl lease = (.error (.lockLost key), s)

/-- Over a run in which locks are taken, renewed and given back under fresh tokens, each lock is
fenced. -/
theorem fencing_sound (es : List Event) (h : Orderly es) (key : String) :
    Fenced (Store.empty.run es) (Store.empty.journal es) key := by
  have hkeeps := Keeps.run h
  have htokens : ((grants (Store.empty.journal es) key).map (·.token)).Nodup :=
    (grants_tokens Store.empty es key).nodup h.fresh
  constructor
  · exact hkeeps.numbered key
  · intro held hstands
    exact (hkeeps.stands key held hstands).last
  · intro now
    exact hkeeps.holder now key
  · rintro now ttl t lease hnow rfl ht
    rcases renew_cases hkeeps.apart now ttl lease with ⟨hrenewable, hres, -⟩ | ⟨hlost, hres⟩
    · refine .inl ⟨(hkeeps.renewable_iff hnow).1 hrenewable, ?_⟩
      rw [hres, ht]
      rfl
    · refine .inr ⟨fun held hlive htoken => ?_, hres⟩
      exact hlost ((hkeeps.renewable_iff hnow).2 ⟨held, hlive, htoken⟩)
  · intro now ttl token held hlive
    exact hkeeps.busy hlive ttl token
  · rintro lease rfl hover
    have hstale : ∀ held, standing (Store.empty.journal es) lease.key = some held →
        held.token ≠ lease.token := fun held hstands => hover.ne_of_standing htokens hstands
    refine ⟨hkeeps.release_eq hstale, fun now ttl hnow => ?_⟩
    rcases renew_cases hkeeps.apart now ttl lease with ⟨hrenewable, -, -⟩ | ⟨-, hres⟩
    · obtain ⟨held, ⟨hstands, -⟩, htoken⟩ := (hkeeps.renewable_iff hnow).1 hrenewable
      exact absurd htoken (hstale held hstands)
    · exact hres

/-- A lease is renewed and lapses, the lock is taken over and given back, and taken once more. -/
def handedOn : List Event :=
  [⟨earlyAt 1, .acquire 5000 "a" "k"⟩,
   ⟨earlyAt 4, .renew 5000 ⟨"k", "a", 1, earlyAt 6⟩⟩,
   ⟨earlyAt 10, .acquire 5000 "b" "k"⟩,
   ⟨earlyAt 12, .release ⟨"k", "b", 2, earlyAt 15⟩⟩,
   ⟨earlyAt 13, .acquire 5000 "c" "k"⟩]

theorem orderly_handedOn : Orderly handedOn where
  plain := by decide
  late := by decide
  fresh := by decide
  timely := by
    intro e he ttl httl
    simp only [handedOn, List.mem_cons, List.not_mem_nil, or_false] at he
    rcases he with rfl | rfl | rfl | rfl | rfl <;> cases httl
    · exact ⟨early 6, rfl⟩
    · exact ⟨early 9, rfl⟩
    · exact ⟨early 15, rfl⟩
    · exact ⟨early 18, rfl⟩

/-- The third holder is reported, and the first can neither renew its lease nor give it back. -/
theorem fencing_sound_handedOn :
    Orderly handedOn ∧ Fenced (Store.empty.run handedOn) (Store.empty.journal handedOn) "k" ∧
      (grants (Store.empty.journal handedOn) "k").map (·.fencing) = [1, 2, 3] ∧
      Live (Store.empty.journal handedOn) (early 14) "k" ⟨"k", "c", 3, early 18⟩ ∧
      Over (Store.empty.journal handedOn) ⟨"k", "a", 1, early 9⟩ :=
  ⟨orderly_handedOn, fencing_sound handedOn orderly_handedOn "k",
    (fencing_sound handedOn orderly_handedOn "k").numbered, ⟨by decide, by decide⟩,
    ⟨[], ⟨"k", "a", 1, early 6⟩, _, rfl, rfl, rfl,
      .inr ⟨⟨"k", "b", 2, early 15⟩, by decide, rfl⟩⟩⟩

end Store

end FolioLedger
