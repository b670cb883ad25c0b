import FolioLedger.Proofs.Ledger.Numbering
import FolioLedger.Proofs.Locks.Rows

/-!
# When a lock is held

Whether a lock is held is asked for in three ways: it is reported, it is taken, and it is renewed.  All three
read the row of the lock, and each has a comparison of its own.  A lock is occupied with a token
(`Store.Occupied`) or vacant (`Store.Vacant`) if the three say so with one voice, and by
`Store.Vacant.of_expired` and `Store.Occupied.of_live` it is the one or the other as `Lock.isExpired` says of
the deadline in the row.  The clock has to be past the beginning of 1970: a lock that was given back has the
deadline 0, and before that a renewal takes the 0 for a deadline that has not passed.
-/

namespace FolioLedger

/-- Past the beginning of 1970 a deadline that has not passed is all that it takes. -/
theorem Lock.isExpired_eq_false_iff {deadline now : Millis} (hnow : 0 < now) :
    isExpired deadline now = false ↔ now ≤ deadline := by
  constructor
  · intro hlive
    unfold isExpired at hlive
    rw [Bool.or_eq_false_iff, decide_eq_false_iff_not, decide_eq_false_iff_not] at hlive
    exact Int.not_lt.1 hlive.2
  · exact fun hle => isExpired_eq_false (Int.lt_of_lt_of_le hnow hle) hle

namespace Store

variable {s t : Store} {now : Instant} {key token : String} {deadline : Millis} {lease : Lease}

/-! ## One row for a key, after every run -/

theorem acquire_apart (h : s.LocksApart) (now : Instant) (ttl : Nat) (token key : String) :
    (s.acquire now ttl token key).2.LocksApart := by
  rcases s.acquire_cases now ttl token key with ⟨fencing, -, hres⟩ | ⟨-, hres⟩ <;> rw [hres]
  · exact h.putLock _
  · exact h

theorem Turn.apart {tokens : List String} {entered : List Series} (hturn : Turn now tokens entered s t)
    (h : s.LocksApart) : t.LocksApart := by
  cases hturn with
  | aside _ hlocks =>
    unfold LocksApart
    rw [hlocks]
    exact h
  | record => exact h
  | resolve => exact h
  | acquire ttl key => exact acquire_apart h now ttl _ key
  | renew ttl => exact renew_apart h now ttl _
  | release => exact release_apart h _

theorem LocksApart.after (h : s.LocksApart) (e : Event) : (s.after e).LocksApart := by
  have hturns := e.turns s
  generalize s.after e = t at hturns ⊢
  induction hturns with
  | refl => exact h
  | tail _ hturn ih => exact hturn.apart ih

theorem LocksApart.run (h : s.LocksApart) (es : List Event) : (s.run es).LocksApart := by
  induction es generalizing s with
  | nil => exact h
  | cons e es ih => exact ih (h.after e)

/-! ## One voice -/

/-- Nobody holds the lock, in whatever way one asks. -/
structure Vacant (s : Store) (now : Instant) (key : String) : Prop where
  unreported : s.holder now key = .ok none
  free : ∀ ttl token, (s.acquire now ttl token key).1 ≠ .error (.lockBusy key)
  lost : ∀ ttl lease, lease.key = key → s.renew now ttl lease = (.error (.lockLost key), s)

/-- The lock is held with a token, in whatever way one asks. -/
structure Occupied (s : Store) (now : Instant) (key token : String) : Prop where
  reported : ∃ held, s.holder now key = .ok (some held) ∧ held.token = token
  busy : ∀ ttl other, s.acquire now ttl other key = (.error (.lockBusy key), s)
  renewed : ∀ (ttl : Nat) (lease : Lease), lease.key = key →
    (∃ d, Instant.ofMillis (Lock.deadline now.toMillis ttl) = .ok d) →
    ((∃ renewed, (s.renew now ttl lease).1 = .ok renewed) ↔ lease.token = token)

theorem acquire_ne_busy (h : ¬ s.Busy now key) (ttl : Nat) (token : String) :
    (s.acquire now ttl token key).1 ≠ .error (.lockBusy key) := by
  obtain ⟨fencing, -, hres⟩ := acquire_of_free h ttl token
  rw [hres]
  unfold Instant.ofMillis
  split <;> nofun

theorem renew_eq_lost (h : s.LocksApart) (hlost : ¬ s.Renewable now lease) (ttl : Nat) :
    s.renew now ttl lease = (.error (.lockLost lease.key), s) := by
  rcases renew_cases h now ttl lease with ⟨hmine, -⟩ | ⟨-, hres⟩
  · exact absurd hmine hlost
  · exact hres

theorem renew_ok_iff (h : s.LocksApart) {ttl : Nat}
    (hdate : ∃ d, Instant.ofMillis (Lock.deadline now.toMillis ttl) = .ok d) :
    (∃ renewed, (s.renew now ttl lease).1 = .ok renewed) ↔ s.Renewable now lease := by
  rcases renew_cases h now ttl lease with ⟨hmine, hres, -⟩ | ⟨hlost, hres⟩
  · obtain ⟨d, hd⟩ := hdate
    refine iff_of_true ⟨{ lease with deadline := d }, ?_⟩ hmine
    rw [hres, hd]
    rfl
  · refine iff_of_false ?_ hlost
    rw [hres]
    rintro ⟨renewed, hrenewed⟩
    cases hrenewed

theorem Vacant.of_none (h : s.LocksApart) (hnone : s.lock? key = none) : s.Vacant now key where
  unreported := by
    unfold holder
    rw [hnone]
  free := by
    refine acquire_ne_busy ?_
    rintro ⟨row, hrow, -⟩
    rw [hnone] at hrow
    cases hrow
  lost := by
    rintro ttl lease rfl
    refine renew_eq_lost h ?_ ttl
    rintro ⟨row, hrow, -⟩
    rw [hnone] at hrow
    cases hrow

theorem Vacant.of_expired (h : s.LocksApart) (hnow : 0 < now.toMillis)
    (hrow : s.Holds key token deadline) (hexpired : Lock.isExpired deadline now.toMillis = true) :
    s.Vacant now key := by
  obtain ⟨row, hrow, -, rfl⟩ := hrow
  refine ⟨holder_of_expired hrow hexpired, acquire_ne_busy ?_, ?_⟩
  · rintro ⟨row', hrow', hlive⟩
    obtain rfl := Option.some.inj (hrow.symm.trans hrow')
    rw [hexpired] at hlive
    cases hlive
  · rintro ttl lease rfl
    refine renew_eq_lost h ?_ ttl
    rintro ⟨row', hrow', -, hle⟩
    obtain rfl := Option.some.inj (hrow.symm.trans hrow')
    rw [(Lock.isExpired_eq_false_iff hnow).2 hle] at hexpired
    cases hexpired

theorem Occupied.of_live (h : s.LocksApart) (hnow : 0 < now.toMillis)
    (hdate : ∃ d, Instant.ofMillis deadline = .ok d) (hrow : s.Holds key token deadline)
    (hlive : Lock.isExpired deadline now.toMillis = false) : s.Occupied now key token := by
  obtain ⟨row, hrow, rfl, rfl⟩ := hrow
  refine ⟨?_, acquire_of_busy ⟨row, hrow, hlive⟩, ?_⟩
  · obtain ⟨d, hd⟩ := hdate
    refine ⟨⟨key, row.token, row.fencing, d⟩, ?_, rfl⟩
    unfold holder
    simp only [hrow, hlive, Bool.false_eq_true, if_false, hd]
    rfl
  · rintro ttl lease rfl hdate
    rw [renew_ok_iff h hdate]
    constructor
    · rintro ⟨row', hrow', htoken, -⟩
      obtain rfl := Option.some.inj (hrow.symm.trans hrow')
      exact htoken.symm
    · exact fun htoken => ⟨row, hrow, htoken.symm, (Lock.isExpired_eq_false_iff hnow).1 hlive⟩

/-- A lock is vacant or occupied, with the token of its row. -/
theorem vacant_or_occupied (h : s.LocksApart) (hnow : 0 < now.toMillis)
    (hdates : ∀ row ∈ s.locks, ∃ d, Instant.ofMillis row.deadline = .ok d) (key : String) :
    s.Vacant now key ∨ ∃ token, s.Occupied now key token := by
  cases hrow : s.lock? key with
  | none => exact .inl (.of_none h hrow)
  | some row =>
    have hholds : s.Holds key row.token row.deadline := ⟨row, hrow, rfl, rfl⟩
    cases hexpired : Lock.isExpired row.deadline now.toMillis with
    | true => exact .inl (.of_expired h hnow hholds hexpired)
    | false => exact .inr ⟨row.token, .of_live h hnow (hdates row (lock?_eq_some hrow).1) hholds hexpired⟩

theorem Holds.release (h : s.Holds lease.key lease.token deadline) :
    (s.release lease).Holds lease.key lease.token 0 := by
  obtain ⟨row, hrow, htoken, -⟩ := h
  refine ⟨{ row with deadline := 0 }, ?_, htoken, rfl⟩
  rw [lock?_release, hrow, Option.map_some, if_pos ⟨(lock?_eq_some hrow).2, htoken⟩]

/-- The three ways to ask agree on who holds the lock. -/
structure Agreed (s : Store) (now : Instant) (key : String) : Prop where
  /-- A lease is reported exactly if the lock is refused. -/
  refused_iff : ∀ ttl token, (s.acquire now ttl token key).1 = .error (.lockBusy key) ↔
    ∃ held, s.holder now key = .ok (some held)
  /-- A lease is renewed exactly if it is the one that is reported. -/
  renewed_iff : ∀ (ttl : Nat) (lease : Lease), lease.key = key →
    (∃ d, Instant.ofMillis (Lock.deadline now.toMillis ttl) = .ok d) →
    ((∃ renewed, (s.renew now ttl lease).1 = .ok renewed) ↔
      ∃ held, s.holder now key = .ok (some held) ∧ held.token = lease.token)

theorem Vacant.agreed (h : s.Vacant now key) : s.Agreed now key where
  refused_iff ttl token := by
    refine iff_of_false (h.free ttl token) ?_
    rw [h.unreported]
    rintro ⟨held, hheld⟩
    cases hheld
  renewed_iff ttl lease hkey _ := by
    rw [h.lost ttl lease hkey, h.unreported]
    constructor
    · rintro ⟨renewed, hrenewed⟩
      cases hrenewed
    · rintro ⟨held, hheld, -⟩
      cases hheld

theorem Occupied.agreed (h : s.Occupied now key token) : s.Agreed now key where
  refused_iff ttl other := by
    obtain ⟨held, hheld, -⟩ := h.reported
    exact iff_of_true (congrArg Prod.fst (h.busy ttl other)) ⟨held, hheld⟩
  renewed_iff ttl lease hkey hdate := by
    obtain ⟨held, hheld, rfl⟩ := h.reported
    rw [h.renewed ttl lease hkey hdate, hheld]
    constructor
    · exact fun htoken => ⟨held, rfl, htoken.symm⟩
    · rintro ⟨held', hsame, htoken⟩
      obtain rfl := Option.some.inj (Except.ok.inj hsame)
      exact htoken.symm

/-- Whether a lock is reported, refused or renewed is one question after every run, and the deadline in its
row decides it: the lock is vacant if that has passed or if it was given back, and occupied with the token of
the row up to the last millisecond of the deadline. -/
theorem lock_liveness_agrees (es : List Event) (now : Instant)
    (hdates : ∀ row ∈ (empty.run es).locks, ∃ d, Instant.ofMillis row.deadline = .ok d)
    (hnow : 0 < now.toMillis) (key : String) :
    let s := empty.run es
    s.Agreed now key ∧
    (s.lock? key = none → s.Vacant now key) ∧
    (∀ token deadline, s.Holds key token deadline →
      if Lock.isExpired deadline now.toMillis then s.Vacant now key else s.Occupied now key token) ∧
    (∀ token, s.Holds key token now.toMillis → s.Occupied now key token) ∧
    ∀ (lease : Lease) (deadline : Millis), lease.key = key → s.Holds key lease.token deadline →
      (s.release lease).Vacant now key := by
  intro s
  have hapart : s.LocksApart := LocksApart.empty.run es
  have hoccupied : ∀ {token deadline}, s.Holds key token deadline →
      Lock.isExpired deadline now.toMillis = false → s.Occupied now key token := by
    rintro token deadline ⟨row, hrow, htoken, rfl⟩ hlive
    exact .of_live hapart hnow (hdates row (lock?_eq_some hrow).1) ⟨row, hrow, htoken, rfl⟩ hlive
  refine ⟨?_, .of_none hapart, fun token deadline hrow => ?_, fun token hrow => ?_, ?_⟩
  · rcases vacant_or_occupied hapart hnow hdates key with hvacant | ⟨token, hoccupied⟩
    · exact hvacant.agreed
    · exact hoccupied.agreed
  · split
    · next hexpired => exact .of_expired hapart hnow hrow hexpired
    · next hlive => exact hoccupied hrow (Bool.not_eq_true _ ▸ hlive)
  · exact hoccupied hrow ((Lock.isExpired_eq_false_iff hnow).2 (Int.le_refl _))
  · rintro lease deadline rfl hrow
    exact .of_expired (release_apart hapart lease) hnow hrow.release rfl

/-- A lock is taken up to the sixth second. -/
def takenToSix : List Event := [⟨earlyAt 1, .acquire 5000 "a" "k"⟩]

/-- In the sixth second it is refused, reported and renewed, and after it was given back it is not. -/
theorem lock_liveness_agrees_takenToSix :
    (∀ row ∈ (empty.run takenToSix).locks, ∃ d, Instant.ofMillis row.deadline = .ok d) ∧
    0 < (earlyAt 6).toMillis ∧
    (empty.run takenToSix).Occupied (earlyAt 6) "k" "a" ∧
    ((empty.run takenToSix).release ⟨"k", "a", 1, earlyAt 6⟩).Vacant (earlyAt 6) "k" := by
  have hdates : ∀ row ∈ (empty.run takenToSix).locks, ∃ d, Instant.ofMillis row.deadline = .ok d := by
    intro row hrow
    obtain rfl := List.mem_singleton.1 hrow
    exact ⟨early 6, rfl⟩
  have hrow : (empty.run takenToSix).Holds "k" "a" (earlyAt 6).toMillis := ⟨_, rfl, rfl, rfl⟩
  obtain ⟨-, -, -, hlast, hreleased⟩ :=
    lock_liveness_agrees takenToSix (earlyAt 6) hdates (by decide) "k"
  exact ⟨hdates, by decide, hlast "a" hrow, hreleased ⟨"k", "a", 1, earlyAt 6⟩ _ rfl hrow⟩

end Store

end FolioLedger
