import Mathlib.Data.ENat.Lattice
import Mathlib.Data.Set.Card
import FolioLedger.Authority.Client
import FolioLedger.Replenish.Poll

/-!
# Retries

What the client does is settled by what its sends come to (`Sent`): each is an answer of some status, or an
outage.  A send that may be retried is, until the retries run out; the first other one concludes the request,
and so does the last one (`Sent.Concludes`).  So the number of sends is known from the sends alone: it is one
more than the retries that are allowed or the sends that lead with a retryable outcome, whichever is less.

The poll of a request goes on after an error exactly if the next one may do better
(`Poll.answered_error_eq_waiting_iff`).  `status_waits_iff` puts the two together.
-/

namespace FolioLedger

open Http

/-- What a send comes to: an answer, whatever its status, or an outage. -/
abbrev Sent := Except Outage Answer

namespace Sent

/-- Another send may do better. -/
def Retryable : Sent → Prop
  | .error _ => True
  | .ok a => a.status = 429 ∨ (500 ≤ a.status ∧ a.status ≤ 599)

/-- What a request for a URL comes to whose last send came to this. -/
inductive Concludes (url : String) : Sent → Except Failure Answer → Prop
  | answered {a : Answer} (hok : 200 ≤ a.status ∧ a.status ≤ 299) : Concludes url (.ok a) (.ok a)
  | locked {a : Answer} (hstatus : a.status = 401 ∨ a.status = 403) :
    Concludes url (.ok a) (.error (.invalidConfig (.credentialsRefused a.status)))
  | missing {a : Answer} (hstatus : a.status = 404) :
    Concludes url (.ok a) (.error (.notFound (.resource url)))
  | refused {a : Answer} (hok : ¬ (200 ≤ a.status ∧ a.status ≤ 299))
    (hother : a.status ∉ [401, 403, 404]) (hfinal : ¬ Retryable (.ok a)) :
    Concludes url (.ok a) (.error (.invalidRequest (.refused a.status a.text)))
  | limited {a : Answer} (hstatus : a.status = 429) :
    Concludes url (.ok a) (.error (.authorityUnavailable .rateLimited))
  | broken {a : Answer} (hstatus : 500 ≤ a.status ∧ a.status ≤ 599) :
    Concludes url (.ok a) (.error (.authorityUnavailable (.serverError a.status a.text)))
  | lost {outage : Outage} : Concludes url (.error outage) (.error (.authorityUnavailable outage))

theorem not_retryable_of_ok {a : Answer} (h : 200 ≤ a.status ∧ a.status ≤ 299) :
    ¬ Retryable (.ok a) := by
  unfold Retryable
  omega

/-- How many sends lead with an outcome that may be retried. -/
noncomputable def leading (sends : ℕ → Sent) : ℕ∞ :=
  {k | ∀ j ≤ k, (sends j).Retryable}.encard

/-- A request that may be retried so often stops after so many retries, if its sends come to these
outcomes. -/
structure StopsAt (sends : ℕ → Sent) (retries n : ℕ) : Prop where
  le : n ≤ retries
  before : ∀ k < n, (sends k).Retryable
  stop : n = retries ∨ ¬ (sends n).Retryable

namespace StopsAt

variable {sends : ℕ → Sent} {retries n n' : ℕ}

/-- A retry that comes after a send that may be retried. -/
theorem succ (hfirst : (sends 0).Retryable) (h : StopsAt (fun k => sends (k + 1)) retries n) :
    StopsAt sends (retries + 1) (n + 1) where
  le := Nat.succ_le_succ h.le
  before k hk := by
    cases k with
    | zero => exact hfirst
    | succ k => exact h.before k (Nat.lt_of_succ_lt_succ hk)
  stop := h.stop.imp (congrArg (· + 1)) id

theorem count (h : StopsAt sends retries n) : (n : ℕ∞) = min (retries : ℕ∞) (leading sends) := by
  have hsub : {k | k < n} ⊆ {k | ∀ j ≤ k, (sends j).Retryable} :=
    fun k hk j hj => h.before j (hj.trans_lt hk)
  have hge : (n : ℕ∞) ≤ leading sends := Set.Nat.encard_range n ▸ Set.encard_le_encard hsub
  rcases h.stop with rfl | hfinal
  · exact (min_eq_left hge).symm
  · have hsup : {k | ∀ j ≤ k, (sends j).Retryable} ⊆ {k | k < n} :=
      fun k hk => not_le.1 fun hnk => hfinal (hk n hnk)
    have hleading : leading sends = n :=
      le_antisymm (Set.Nat.encard_range n ▸ Set.encard_le_encard hsup) hge
    rw [hleading]
    exact (min_eq_right (by exact_mod_cast h.le)).symm

theorem unique (h : StopsAt sends retries n) (h' : StopsAt sends retries n') : n = n' := by
  rcases lt_trichotomy n n' with hlt | heq | hgt
  · exact absurd (h'.before n hlt) (h.stop.resolve_left (hlt.trans_le h'.le).ne)
  · exact heq
  · exact absurd (h.before n' hgt) (h'.stop.resolve_left (hgt.trans_le h.le).ne)

/-- The retries ran out. -/
theorem retryable_iff (h : StopsAt sends retries n) :
    (sends n).Retryable ↔ ∀ k ≤ retries, (sends k).Retryable := by
  constructor
  · intro hretryable k hk
    have hlast : n = retries := h.stop.resolve_right (not_not.2 hretryable)
    rcases (hlast ▸ hk).lt_or_eq with hlt | rfl
    · exact h.before k hlt
    · exact hretryable
  · exact fun hall => hall n h.le

/-- The last send may be retried, or is answered so: then the retries ran out, or the first send that may not
be retried is answered so. -/
theorem last_iff (h : StopsAt sends retries n) (p : Answer → Prop) :
    ((sends n).Retryable ∨ ∃ a, sends n = .ok a ∧ (200 ≤ a.status ∧ a.status ≤ 299) ∧ p a) ↔
      (∀ k ≤ retries, (sends k).Retryable) ∨
      ∃ n ≤ retries, (∀ k < n, (sends k).Retryable) ∧
        ∃ a, sends n = .ok a ∧ (200 ≤ a.status ∧ a.status ≤ 299) ∧ p a := by
  refine or_congr h.retryable_iff ⟨fun hlast => ⟨n, h.le, h.before, hlast⟩, ?_⟩
  rintro ⟨n', hle', hbefore', a, ha, hok, hp⟩
  have hfinal : ¬ (sends n').Retryable := ha ▸ not_retryable_of_ok hok
  obtain rfl : n = n' := h.unique ⟨hle', hbefore', .inr hfinal⟩
  exact ⟨a, ha, hok, hp⟩

end StopsAt

/-- A request for a URL that may be retried so often ends with a verdict after so many retries, if its
sends come to these outcomes. -/
structure Settle (url : String) (sends : ℕ → Sent) (retries n : ℕ) (verdict : Except Failure Answer) :
    Prop where
  count : (n : ℕ∞) = min (retries : ℕ∞) (leading sends)
  verdict : (sends n).Concludes url verdict

/-- A request comes to an error that may pass exactly if its last send may be retried. -/
theorem Concludes.isTransient_iff {url : String} {sent : Sent} {failure : Failure}
    (h : sent.Concludes url (.error failure)) : failure.isTransient = true ↔ sent.Retryable := by
  cases h with
  | locked hstatus => exact iff_of_false nofun (by unfold Retryable; omega)
  | missing hstatus => exact iff_of_false nofun (by unfold Retryable; omega)
  | refused _ _ hfinal => exact iff_of_false nofun hfinal
  | limited hstatus => exact iff_of_true rfl (.inl hstatus)
  | broken hstatus => exact iff_of_true rfl (.inr hstatus)
  | lost => exact iff_of_true rfl trivial

theorem Concludes.eq_ok {url : String} {sent : Sent} {a : Answer} (h : sent.Concludes url (.ok a)) :
    sent = .ok a ∧ 200 ≤ a.status ∧ a.status ≤ 299 := by
  cases h with
  | answered hok => exact ⟨rfl, hok⟩

theorem Concludes.not_ok {url : String} {a : Answer} {failure : Failure}
    (h : Concludes url (.ok a) (.error failure)) : ¬ (200 ≤ a.status ∧ a.status ≤ 299) := by
  cases h with
  | refused hok => exact hok
  | _ => omega

end Sent

/-! ## One send -/

/-- What a send means to the request for a URL. -/
def Attempt.ofSent (url : String) : Sent → Attempt
  | .error outage => .spoiled outage
  | .ok a => Attempt.ofAnswer url a

theorem Attempt.ofSent_spoiled_iff (url : String) {sent : Sent} :
    (∃ outage, Attempt.ofSent url sent = .spoiled outage) ↔ sent.Retryable := by
  cases sent with
  | error outage => exact iff_of_true ⟨outage, rfl⟩ trivial
  | ok a =>
    simp only [Attempt.ofSent, Attempt.ofAnswer, Sent.Retryable]
    split_ifs <;> simp <;> omega

theorem Sent.concludes (url : String) (sent : Sent) :
    sent.Concludes url (Attempt.ofSent url sent).outcome := by
  cases sent with
  | error outage => exact .lost
  | ok a =>
    simp only [Attempt.ofSent, Attempt.ofAnswer]
    split_ifs with hok hlocked hmissing hlimited hbroken
    · exact .answered hok
    · exact .locked hlocked
    · exact .missing hmissing
    · exact .limited hlimited
    · exact .broken hbroken
    · refine .refused hok ?_ ?_
      · simp_all
      · simp_all [Sent.Retryable]

namespace AuthorityConfig

variable {m : Type → Type} [Monad m]

/-- One send to a URL, with all it takes to be followed elsewhere. -/
def send (c : AuthorityConfig) (peer : Peer m) (method : Method) (url : String)
    (body : Option String) : m Sent :=
  match c.request method url body with
  | .error outage => return .error outage
  | .ok r => follow peer maxHops r

theorem attempt_eq [LawfulMonad m] (c : AuthorityConfig) (peer : Peer m) (method : Method)
    (url : String) (body : Option String) :
    c.attempt peer method url body = Attempt.ofSent url <$> c.send peer method url body := by
  unfold attempt send
  cases c.request method url body with
  | error outage => simp [Attempt.ofSent]
  | ok r =>
    rw [map_eq_pure_bind]
    refine bind_congr fun sent => ?_
    cases sent <;> rfl

end AuthorityConfig

/-! ## All sends

A computation that is run again and again in a world that it changes. -/

section Repeated

variable {σ α : Type}

/-- The world after a computation was run so often. -/
def worldAfter (step : StateM σ α) (w : σ) (k : ℕ) : σ :=
  (fun w => (step.run w).2)^[k] w

/-- What a computation gives after it was run so often before. -/
def resultAfter (step : StateM σ α) (w : σ) (k : ℕ) : α :=
  (step.run (worldAfter step w k)).1

theorem worldAfter_succ (step : StateM σ α) (w : σ) (k : ℕ) :
    worldAfter step w (k + 1) = worldAfter step (step.run w).2 k := rfl

theorem resultAfter_succ (step : StateM σ α) (w : σ) (k : ℕ) :
    resultAfter step w (k + 1) = resultAfter step (step.run w).2 k := rfl

end Repeated

/-- The sends come to these outcomes, and are counted. -/
def scripted (outcomes : ℕ → Sent) : StateM ℕ Sent :=
  fun sent => (outcomes sent, sent + 1)

theorem worldAfter_scripted (outcomes : ℕ → Sent) (k : ℕ) : worldAfter (scripted outcomes) 0 k = k := by
  induction k with
  | zero => rfl
  | succ k ih =>
    unfold worldAfter at ih ⊢
    rw [Function.iterate_succ_apply', ih]
    rfl

theorem resultAfter_scripted (outcomes : ℕ → Sent) (k : ℕ) :
    resultAfter (scripted outcomes) 0 k = outcomes k := by
  unfold resultAfter
  rw [worldAfter_scripted]
  rfl

section Loop

variable {σ : Type} (url : String) (send : StateM σ Sent)

/-- A request with retries left makes a send, and then goes on or not. -/
theorem persist_succ_run (retries : ℕ) (w : σ) :
    (persist (Attempt.ofSent url <$> send) (retries + 1)).run w =
      (match Attempt.ofSent url (send.run w).1 with
        | .spoiled _ => persist (Attempt.ofSent url <$> send) retries
        | attempt => pure attempt.outcome : StateM σ _).run (send.run w).2 := rfl

/-- It goes on after a send that may be retried. -/
theorem persist_run_of_retryable {w : σ} (h : (send.run w).1.Retryable) (retries : ℕ) :
    (persist (Attempt.ofSent url <$> send) (retries + 1)).run w =
      (persist (Attempt.ofSent url <$> send) retries).run (send.run w).2 := by
  obtain ⟨outage, hspoiled⟩ := (Attempt.ofSent_spoiled_iff url).2 h
  rw [persist_succ_run, hspoiled]

/-- It ends with a send that may not. -/
theorem persist_run_of_final {w : σ} (h : ¬ (send.run w).1.Retryable) (retries : ℕ) :
    (persist (Attempt.ofSent url <$> send) retries).run w =
      ((Attempt.ofSent url (send.run w).1).outcome, (send.run w).2) := by
  cases retries with
  | zero => rfl
  | succ retries =>
    rw [persist_succ_run]
    cases hattempt : Attempt.ofSent url (send.run w).1 with
    | spoiled outage => exact absurd ((Attempt.ofSent_spoiled_iff url).1 ⟨outage, hattempt⟩) h
    | _ => rfl

/-- A request sends until a send may not be retried or there are no retries left, and that send concludes
it. -/
theorem persist_run (retries : ℕ) (w : σ) :
    ∃ n, Sent.StopsAt (resultAfter send w) retries n ∧
      (persist (Attempt.ofSent url <$> send) retries).run w =
        ((Attempt.ofSent url (resultAfter send w n)).outcome, worldAfter send w (n + 1)) := by
  induction retries generalizing w with
  | zero => exact ⟨0, ⟨le_rfl, nofun, .inl rfl⟩, rfl⟩
  | succ retries ih =>
    by_cases hretryable : (send.run w).1.Retryable
    · obtain ⟨n, hstops, hrun⟩ := ih (send.run w).2
      rw [← funext (resultAfter_succ send w)] at hstops
      refine ⟨n + 1, hstops.succ hretryable, ?_⟩
      rw [persist_run_of_retryable url send hretryable, hrun, resultAfter_succ, worldAfter_succ _ w (n + 1)]
    · exact ⟨0, ⟨Nat.zero_le _, nofun, .inr hretryable⟩, persist_run_of_final url send hretryable _⟩

end Loop

/-! ## The status of a request -/

/-- The document of an answer reports a status, with a location and a reason if it has them. -/
def Http.Answer.Reports (a : Answer) (status : String) (location reason : Option String) : Prop :=
  ∃ document fieldOfStatus fieldOfLocation fieldOfReason, a.document? = some document ∧
    document.fields? ["status", "artifact_url", "reason"] =
      some [fieldOfStatus, fieldOfLocation, fieldOfReason] ∧
    Json.needed Json.text? fieldOfStatus = some status ∧
    Json.lenient Json.text? fieldOfLocation = some location ∧
    Json.lenient Json.text? fieldOfReason = some reason

/-- The document of an answer is no report of a status. -/
def Http.Answer.Malformed (a : Answer) : Prop :=
  ¬ ∃ status location reason, a.Reports status location reason

/-- An answer reports a status that no request has. -/
def Http.Answer.NamesUnknown (a : Answer) : Prop :=
  ∃ status location reason, a.Reports status location reason ∧
    status.toUpper ∉ ["PENDING", "ACCEPTED", "REJECTED"]

theorem Http.Answer.Reports.status_eq {a : Answer} {status status' : String}
    {location location' reason reason' : Option String} (h : a.Reports status location reason)
    (h' : a.Reports status' location' reason') : status = status' := by
  obtain ⟨document, field, _, _, hdocument, hfields, hstatus, -⟩ := h
  obtain ⟨document', field', _, _, hdocument', hfields', hstatus', -⟩ := h'
  obtain rfl : document = document' := Option.some.inj (hdocument.symm.trans hdocument')
  obtain rfl : field = field' := (List.cons.inj (Option.some.inj (hfields.symm.trans hfields'))).1
  exact Option.some.inj (hstatus.symm.trans hstatus')

theorem readStatus_of_malformed {a : Answer} (h : a.Malformed) (trackingId : String) :
    readStatus trackingId a = .error (.authorityUnavailable .malformedStatus) := by
  simp only [readStatus]
  split
  · rfl
  · rename_i status location reason hreport
    refine absurd ⟨status, location, reason, ?_⟩ h
    simp only [Option.bind_eq_bind, Option.bind_eq_some_iff] at hreport
    obtain ⟨document, hdocument, fields, hfields, hreport⟩ := hreport
    split at hreport
    · simp only [Option.bind_eq_some_iff, Option.some.injEq, Prod.mk.injEq] at hreport
      obtain ⟨_, hstatus, _, hlocation, _, hreason, rfl, rfl, rfl⟩ := hreport
      exact ⟨document, _, _, _, hdocument, hfields, hstatus, hlocation, hreason⟩
    · cases hreport

/-- A report is read with an error that may pass exactly if no request has its status. -/
theorem Http.Answer.Reports.readStatus_transient_iff {a : Answer} {status : String}
    {location reason : Option String} (h : a.Reports status location reason) (trackingId : String) :
    (∃ failure, readStatus trackingId a = .error failure ∧ failure.isTransient = true) ↔
      status.toUpper ∉ ["PENDING", "ACCEPTED", "REJECTED"] := by
  obtain ⟨document, _, _, _, hdocument, hfields, hstatus, hlocation, hreason⟩ := h
  simp only [readStatus, hdocument, hfields, hstatus, hlocation, hreason, Option.bind_eq_bind,
    Option.bind_some]
  split
  · simp [*]
  · cases location <;> simp [*, Failure.isTransient]
  · simp [*]
  · rename_i hpending haccepted hrejected
    refine iff_of_true ⟨_, rfl, rfl⟩ ?_
    simpa using ⟨hpending, haccepted, hrejected⟩

/-- An answer is read with an error that may pass exactly if it is no report, or of no known status. -/
theorem readStatus_transient_iff {a : Answer} {trackingId : String} :
    (∃ failure, readStatus trackingId a = .error failure ∧ failure.isTransient = true) ↔
      a.Malformed ∨ a.NamesUnknown := by
  by_cases hmalformed : a.Malformed
  · exact iff_of_true ⟨_, readStatus_of_malformed hmalformed trackingId, rfl⟩ (.inl hmalformed)
  · obtain ⟨status, location, reason, hreport⟩ := not_not.1 hmalformed
    rw [hreport.readStatus_transient_iff, or_iff_right hmalformed]
    constructor
    · exact fun hunknown => ⟨status, location, reason, hreport, hunknown⟩
    · rintro ⟨_, _, _, hreport', hunknown⟩
      rwa [hreport.status_eq hreport']

theorem Poll.answered_error_eq_waiting_iff {p : Poll} {s : Store} {since : Instant} {failure : Failure} :
    p.answered s since (.error failure) = (.waiting, s, []) ↔ failure.isTransient = true := by
  simp only [Poll.answered]
  split_ifs with htransient
  · exact iff_of_true rfl htransient
  · exact iff_of_false nofun htransient

section Client

variable {σ : Type} (c : AuthorityConfig) (peer : Peer (StateM σ)) (w : σ)

/-- The client makes sends until one concludes the request. -/
theorem AuthorityConfig.ask_run (method : Method) (url : String) (body : Option String) :
    let send := c.send peer method url body
    ∃ n, Sent.StopsAt (resultAfter send w) c.maxRetries n ∧
      (c.ask peer method url body).run w =
        ((Attempt.ofSent url (resultAfter send w n)).outcome, worldAfter send w (n + 1)) := by
  unfold AuthorityConfig.ask
  rw [c.attempt_eq]
  exact persist_run url (c.send peer method url body) c.maxRetries w

/-- What the client says of a status is read off the answer that concludes the request. -/
theorem Authority.overHttp_status_run (trackingId : String) :
    ∃ n verdict, Sent.StopsAt (resultAfter (c.send peer .get (c.statusUrl trackingId) none) w)
        c.maxRetries n ∧
      (resultAfter (c.send peer .get (c.statusUrl trackingId) none) w n).Concludes
        (c.statusUrl trackingId) verdict ∧
      (((Authority.overHttp c peer).status trackingId).run w).1 = verdict.bind (readStatus trackingId) := by
  obtain ⟨n, hstops, hrun⟩ := c.ask_run peer w .get (c.statusUrl trackingId) none
  refine ⟨n, _, hstops, Sent.concludes _ _, ?_⟩
  have hstatus : (((Authority.overHttp c peer).status trackingId).run w).1 =
    ((c.ask peer .get (c.statusUrl trackingId) none).run w).1.bind (readStatus trackingId) := rfl
  rw [hstatus, hrun]

end Client

/-- A poll goes on after an error exactly if the error may pass. -/
theorem Poll.waits_iff {p : Poll} {s : Store} {since : Instant}
    {answer : Except Failure AuthorityStatus} :
    (∃ failure, answer = .error failure ∧ p.answered s since answer = (.waiting, s, [])) ↔
      ∃ failure, answer = .error failure ∧ failure.isTransient = true := by
  refine exists_congr fun failure => and_congr_right ?_
  rintro rfl
  exact Poll.answered_error_eq_waiting_iff

/-- A request comes to an error that may pass exactly if its last send may be retried, or was answered but
not with the status of a request. -/
theorem Sent.Concludes.readStatus_transient_iff {url trackingId : String} {sent : Sent}
    {verdict : Except Failure Answer} (h : sent.Concludes url verdict) :
    (∃ failure, verdict.bind (readStatus trackingId) = .error failure ∧ failure.isTransient = true) ↔
      sent.Retryable ∨ ∃ a, sent = .ok a ∧ (200 ≤ a.status ∧ a.status ≤ 299) ∧
        (a.Malformed ∨ a.NamesUnknown) := by
  cases verdict with
  | error failure =>
    have hnone : ¬ ∃ a, sent = .ok a ∧ (200 ≤ a.status ∧ a.status ≤ 299) ∧
        (a.Malformed ∨ a.NamesUnknown) := by
      rintro ⟨a, rfl, hok, -⟩
      exact h.not_ok hok
    rw [or_iff_left hnone, ← h.isTransient_iff]
    constructor
    · exact fun ⟨_, heq, htransient⟩ => Except.error.inj heq ▸ htransient
    · exact fun htransient => ⟨failure, rfl, htransient⟩
  | ok a =>
    obtain ⟨rfl, hok⟩ := h.eq_ok
    rw [or_iff_right (Sent.not_retryable_of_ok hok)]
    refine FolioLedger.readStatus_transient_iff.trans ?_
    constructor
    · exact fun hread => ⟨a, rfl, hok, hread⟩
    · rintro ⟨_, heq, -, hread⟩
      exact Except.ok.inj heq ▸ hread

/-- The client makes one send more than the retries that are allowed or the sends that lead with a retryable
outcome, whichever is less, and the last one concludes the request: so it is of the loop, whatever the
outcomes, and of the client with any peer.  A poll that asks for a status goes on after an error exactly if
all sends that are allowed may be retried, or the first that may not is answered, but not with the status of
a request. -/
theorem status_waits_iff :
    (∀ (url : String) (retries : ℕ) (outcomes : ℕ → Sent), ∃ n verdict,
      Sent.Settle url outcomes retries n verdict ∧
      (persist (Attempt.ofSent url <$> scripted outcomes) retries).run 0 = (verdict, 1 + n)) ∧
    ∀ (σ : Type) (c : AuthorityConfig) (peer : Peer (StateM σ)) (w : σ),
      (∀ (method : Method) (url : String) (body : Option String),
        let send := c.send peer method url body
        ∃ n verdict, Sent.Settle url (resultAfter send w) c.maxRetries n verdict ∧
          (c.ask peer method url body).run w = (verdict, worldAfter send w (1 + n))) ∧
      ∀ (trackingId : String) (p : Poll) (s : Store) (since : Instant),
        let sends := resultAfter (c.send peer .get (c.statusUrl trackingId) none) w
        let answer := (((Authority.overHttp c peer).status trackingId).run w).1
        (∃ failure, answer = .error failure ∧ p.answered s since answer = (.waiting, s, [])) ↔
          (∀ k ≤ c.maxRetries, (sends k).Retryable) ∨
          ∃ n ≤ c.maxRetries, (∀ k < n, (sends k).Retryable) ∧
            ∃ a, sends n = .ok a ∧ (200 ≤ a.status ∧ a.status ≤ 299) ∧
              (a.Malformed ∨ a.NamesUnknown) := by
  refine ⟨fun url retries outcomes => ?_, fun σ c peer w => ⟨fun method url body => ?_, ?_⟩⟩
  · obtain ⟨n, hstops, hrun⟩ := persist_run url (scripted outcomes) retries 0
    rw [funext (resultAfter_scripted outcomes)] at hstops hrun
    rw [worldAfter_scripted, Nat.add_comm] at hrun
    exact ⟨n, _, ⟨hstops.count, (outcomes n).concludes url⟩, hrun⟩
  · intro send
    obtain ⟨n, hstops, hrun⟩ := c.ask_run peer w method url body
    rw [Nat.add_comm] at hrun
    exact ⟨n, _, ⟨hstops.count, Sent.concludes url _⟩, hrun⟩
  · intro trackingId p s since sends answer
    obtain ⟨n, verdict, hstops, hconcludes, hanswer⟩ :=
      Authority.overHttp_status_run c peer w trackingId
    rw [Poll.waits_iff, show answer = _ from hanswer, hconcludes.readStatus_transient_iff]
    exact hstops.last_iff fun a => a.Malformed ∨ a.NamesUnknown

end FolioLedger
