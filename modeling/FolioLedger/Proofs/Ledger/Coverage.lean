import FolioLedger.Engine
import FolioLedger.Proofs.Ledger.Integrity

/-!
# What runs cover

Triggers, polls and the background of an engine do their work over a world outside: clocks, fresh
names, the authority.  In whatever monad that world lives, and whatever it answers, each of them
takes the store where some run takes it (`Workshop.trigger_leads`, `Workshop.poll_leads`,
`Engine.pass_leads`).  So what holds after every run holds whenever they come to rest, as the
integrity of the ledger does (`Engine.pass_integrity`).
-/

namespace FolioLedger

/-- Whatever a computation gives satisfies `p`. -/
def Always {m : Type → Type} [Monad m] {α : Type} (p : α → Prop) (x : m α) : Prop :=
  ∃ y : m {a // p a}, Subtype.val <$> y = x

namespace Always

variable {m : Type → Type} [Monad m] [LawfulMonad m] {α β : Type} {p q : α → Prop} {r : β → Prop}

theorem pure {a : α} (h : p a) : Always p (pure a : m α) :=
  ⟨Pure.pure ⟨a, h⟩, map_pure ..⟩

theorem any (x : m α) : Always (fun _ => True) x :=
  ⟨(⟨·, trivial⟩) <$> x, by simp⟩

theorem bind {x : m α} {f : α → m β} (hx : Always p x) (hf : ∀ a, p a → Always r (f a)) :
    Always r (x >>= f) := by
  obtain ⟨y, rfl⟩ := hx
  refine ⟨y >>= fun a => (hf a.1 a.2).choose, ?_⟩
  rw [map_bind, bind_map_left]
  exact congrArg _ (funext fun a => (hf a.1 a.2).choose_spec)

/-- What is asked of the world may be answered in any way. -/
theorem any_bind {x : m α} {f : α → m β} (hf : ∀ a, Always r (f a)) : Always r (x >>= f) :=
  (any x).bind fun a _ => hf a

theorem imp {x : m α} (hx : Always p x) (h : ∀ a, p a → q a) : Always q x := by
  rw [← bind_pure x]
  exact hx.bind fun a ha => .pure (h a ha)

theorem foldlM {f : α → β → m α} (h : ∀ a b, p a → Always p (f a b)) (bs : List β) {a : α}
    (ha : p a) : Always p (bs.foldlM f a) := by
  induction bs generalizing a with
  | nil => exact .pure ha
  | cons b bs ih => exact (h a b ha).bind fun a' ha' => ih ha'

end Always

/-- Some events take `s` to `t`. -/
def Store.Leads (s t : Store) : Prop :=
  ∃ es, s.run es = t

namespace Store.Leads

variable {s t u : Store}

@[refl] theorem refl (s : Store) : s.Leads s := ⟨[], rfl⟩

theorem trans (h : s.Leads t) (h' : t.Leads u) : s.Leads u := by
  obtain ⟨es, rfl⟩ := h
  obtain ⟨fs, rfl⟩ := h'
  exact ⟨es ++ fs, run_append ..⟩

theorem of_event (s : Store) (clock : Instant) (call : Call) : s.Leads (s.after ⟨clock, call⟩) :=
  ⟨[⟨clock, call⟩], rfl⟩

theorem foldl {α : Type} {f : Store → α → Store} (h : ∀ (s : Store) a, s.Leads (f s a))
    (as : List α) (s : Store) : s.Leads (as.foldl f s) := by
  induction as generalizing s with
  | nil => exact .refl s
  | cons a as ih => exact (h s a).trans (ih _)

theorem coherent (h : s.Leads t) (hs : Coherent s) : Coherent t := by
  obtain ⟨es, rfl⟩ := h
  exact hs.run es

end Store.Leads

open Store

variable {m : Type → Type} [Monad m] [LawfulMonad m] (world : World m)

/-! ## Triggers and polls -/

namespace Workshop

variable (w : Workshop)

theorem trigger_leads (s : Store) (series : Series) (threshold : Nat) :
    Always (fun out => s.Leads out.2) (w.trigger world s series threshold) := by
  unfold trigger
  refine .any_bind fun now => .any_bind fun later => .any_bind fun token => ?_
  have hprepare := Leads.of_event s now (.prepare w.monitor later token series threshold)
  simp only [after] at hprepare
  split
  · next h =>
    rw [h] at hprepare
    exact .pure hprepare
  · next draft t h =>
    rw [h] at hprepare
    refine .any_bind fun answer => .pure ?_
    exact hprepare.trans (.of_event t now (.record draft answer))

theorem advance_leads (p : Poll) (s : Store) (stage : PollStage) :
    Always (fun out => s.Leads out.2.1) (w.advance world p s stage) := by
  cases stage with
  | waiting => exact .pure (.refl s)
  | ended => exact .pure (.refl s)
  | asking since =>
    exact .any_bind fun answer => .pure (.of_event s since (.answered p since answer))
  | fetching location =>
    exact .any_bind fun answer => .any_bind fun now => .pure (.refl s)
  | registering new =>
    refine .any_bind fun id => .any_bind fun now => .pure ?_
    exact .of_event s now (.ingest w.monitor w.faulty id p new)
  | accepting range => exact .any_bind fun now => .pure (.of_event s now (.accept p range))
  | rejecting failure => exact .any_bind fun now => .pure (.of_event s now (.reject p failure))

theorem advanceAll_leads (fuel : Nat) (p : Poll) (s : Store) (stage : PollStage) :
    Always (fun out => s.Leads out.2.1) (w.advanceAll world fuel p s stage) := by
  induction fuel generalizing s stage with
  | zero => exact .pure (.refl s)
  | succ fuel ih =>
    unfold advanceAll
    split
    · exact .pure (.refl s)
    · exact .pure (.refl s)
    · refine (w.advance_leads world p s _).bind fun out hout => ?_
      refine (ih out.2.1 out.1).bind fun out' hout' => ?_
      exact .pure (hout.trans hout')

theorem tick_leads (p : Poll) (s : Store) :
    Always (fun out => s.Leads out.2.2.1) (w.tick world p s) := by
  unfold tick
  refine .any_bind fun now => .any_bind fun later => ?_
  have htick := Leads.of_event s now (.tick w.monitor p later)
  refine (w.advanceAll_leads world 5 _ _ _).bind fun out hout => .pure ?_
  exact htick.trans hout

theorem poll_leads (interval ticks : Nat) (p : Poll) (s : Store) :
    Always (fun out => s.Leads out.2.1) (w.poll world interval ticks p s) := by
  have hcancel : ∀ p : Poll, ∀ s : Store, s.Leads (p.cancel s).2 := fun p s =>
    .of_event s default (.cancel p)
  induction ticks generalizing p s with
  | zero => exact .pure (hcancel p s)
  | succ ticks ih =>
    unfold poll
    refine .any_bind fun called => ?_
    split
    · exact .pure (hcancel p s)
    refine .any_bind fun _ => .any_bind fun calledLater => ?_
    split
    · exact .pure (hcancel p s)
    refine (w.tick_leads world p s).bind fun out hout => ?_
    obtain ⟨p', outcome, t, alerts⟩ := out
    cases outcome with
    | some outcome => exact .pure hout
    | none => exact (ih p' t).bind fun out' hout' => .pure (hout.trans hout')

end Workshop

/-! ## The background of an engine -/

namespace Engine

variable (e : Engine)

@[simp] theorem await_store (st : State) (request : ReplenishmentRequest) (lease : Lease) :
    (e.await st request lease).store = st.store := by
  unfold await
  split <;> rfl

theorem handle_leads (st : State) (t : Trigger) :
    Always (fun st' => st.store.Leads st'.store) (e.handle world st t) := by
  refine (e.workshop.trigger_leads world st.store t.series t.threshold).bind fun out hout => ?_
  obtain ⟨outcome, store⟩ := out
  simp only
  split
  · exact .pure (by simpa using hout)
  · exact .pure (by simpa using hout)
  · exact .pure hout

theorem workOff_leads (st : State) :
    Always (fun st' => st.store.Leads st'.store) (e.workOff world st) := by
  refine Always.foldlM (fun st' t hst' => ?_) _ (.refl st.store)
  exact (e.handle_leads world st' t).imp fun _ => hst'.trans

theorem run_leads (st : State) (job : Job) :
    Always (fun out => st.store.Leads out.1.store) (e.run world st job) := by
  cases job with
  | takeUp trackingId =>
    refine .any_bind fun now => .any_bind fun token => ?_
    have htake := Leads.of_event st.store now (.takeUp e.workshop.monitor token trackingId)
    simp only [after] at htake
    split
    · next h =>
      rw [h] at htake
      exact .pure htake
    · next h =>
      rw [h] at htake
      exact .pure (by simpa using htake)
  | poll p =>
    refine (e.workshop.tick_leads world p st.store).bind fun out hout => ?_
    obtain ⟨p', outcome, store, alerts⟩ := out
    cases outcome <;> exact .pure hout
  | sweep =>
    refine .any_bind fun now => ?_
    have hsweep := Leads.of_event st.store now (.sweep e.watch now)
    simp only
    split <;> exact .pure hsweep

theorem runAll_leads (st : State) (jobs : List Waiting) :
    Always (fun out => st.store.Leads out.1.store) (e.runAll world st jobs) := by
  induction jobs generalizing st with
  | nil => exact .pure (.refl st.store)
  | cons j jobs ih =>
    refine (e.run_leads world st j.job).bind fun out hout => ?_
    exact (ih out.1).bind fun out' hout' => .pure (hout.trans hout')

theorem runUntil_leads (fuel : Nat) (st : State) (target : Nat) :
    Always (fun out => st.store.Leads out.1.store) (e.runUntil world fuel st target) := by
  induction fuel generalizing st with
  | zero => exact .pure (.refl st.store)
  | succ fuel ih =>
    unfold runUntil
    refine (e.workOff_leads world st).bind fun st' hst' => ?_
    split
    · exact .pure hst'
    split
    · exact .pure hst'
    refine (e.runAll_leads world _ _).bind fun out hout => ?_
    exact (ih out.1).bind fun out' hout' => .pure (hst'.trans (hout.trans hout'))

/-- Whatever an engine does while time passes, some run does to its store. -/
theorem pass_leads (st : State) (ms : Nat) :
    Always (fun out => st.store.Leads out.1.store) (e.pass world st ms) := by
  refine (e.runAll_leads world _ _).bind fun out hout => ?_
  exact (e.runUntil_leads world maxMoments out.1 _).bind fun out' hout' =>
    .pure (hout.trans hout')

/-- An engine that finds a coherent ledger leaves one of integrity. -/
theorem pass_integrity (st : State) (ms : Nat) (h : Coherent st.store) :
    Always (fun out => Integrity out.1.store) (e.pass world st ms) :=
  (e.pass_leads world st ms).imp fun _ hleads => (hleads.coherent h).integrity

theorem stop_leads (st : State) : st.store.Leads (stop st).store := by
  refine Leads.foldl (fun store j => ?_) st.background.waiting st.store
  obtain ⟨due, serial, job⟩ := j
  cases job with
  | poll p => exact .of_event store default (.cancel p)
  | takeUp => exact .refl store
  | sweep => exact .refl store

end Engine

end FolioLedger
