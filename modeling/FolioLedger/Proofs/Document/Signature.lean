import FolioLedger.Proofs.Replenish.Artifact
import FolioLedger.Proofs.Time.Printer

/-!
# What a signature covers

The signed text joins the facts of an artifact by bars.  From its end the facts can be told apart: the
second of the authorization and the bounds contain no bar.  Issuer and document type may contain one,
and of these two only the joined text is told (`signingPayload_inj`).  So an accepted artifact agrees
with what a key's owner has approved, but for the place of the bar between issuer and document type
(`Verifier.exists_approval`), and it stays accepted when that bar is moved to another one
(`Verifier.verify_of_joined`).
-/

namespace FolioLedger

open Numeral

/-! ## The signed text -/

/-- Issuer and document type as they stand in the signed text. -/
def Series.joined (s : Series) : String := s.issuer ++ "|" ++ s.docType

theorem Instant.bar_notMem_renderSeconds (t : Instant) : '|' ∉ t.renderSeconds.toList := by
  have hbar := notMem_padded (c := '|') (by decide)
  have hclock := notMem_renderClock (c := '|') (by decide) (by decide) t
  have hyear : ∀ year, '|' ∉ (Date.renderYear year).toList := by
    intro year
    unfold Date.renderYear
    split
    · exact hbar 4 _
    · split <;> simp [hbar]
  unfold renderSeconds Date.render
  simp [hbar, hclock, hyear]

variable {s s' : Series} {first last first' last' : Nat} {t t' : Instant}

theorem signingPayload_inj :
    signingPayload s first last t = signingPayload s' first' last' t' ↔
      s.joined = s'.joined ∧ first = first' ∧ last = last' ∧
        t.second = t'.second ∧ t.isLeap = t'.isLeap := by
  have hnumber := notMem_padded (c := '|') (by decide) 1
  unfold signingPayload numberText
  -- From the end, since only issuer and document type may contain a bar.
  rw [append_separator_inj (c := '|') (by decide) t.bar_notMem_renderSeconds
      t'.bar_notMem_renderSeconds,
    append_separator_inj (c := '|') (by decide) (hnumber last) (hnumber last'),
    append_separator_inj (c := '|') (by decide) (hnumber first) (hnumber first'),
    padded_inj, padded_inj, Instant.renderSeconds_inj, and_assoc, and_assoc]
  rfl

/-- The joined text tells the series once it is known how many bars are in the issuer. -/
theorem Series.eq_iff_joined : s = s' ↔ s.joined = s'.joined ∧
    s.issuer.toList.count '|' = s'.issuer.toList.count '|' := by
  constructor
  · rintro rfl
    exact ⟨rfl, rfl⟩
  · rintro ⟨hjoined, hcount⟩
    obtain ⟨issuer, docType⟩ := s
    obtain ⟨issuer', docType'⟩ := s'
    have hlists : issuer.toList ++ '|' :: docType.toList = issuer'.toList ++ '|' :: docType'.toList := by
      simpa [joined] using congrArg String.toList hjoined
    obtain ⟨hissuer, hdocType⟩ := append_cons_inj_of_count hlists hcount
    rw [String.toList_inj.1 hissuer, String.toList_inj.1 hdocType]

/-! ## Approvals -/

/-- What the owner of a key approves by a signature. -/
structure Approval where
  series : Series
  first : Nat
  last : Nat
  authorizedAt : Instant
deriving DecidableEq

/-- What an artifact claims to be approved. -/
def Artifact.approval (a : Artifact) : Approval := ⟨a.series, a.first, a.last, a.authorizedAt⟩

/-- What the caller takes to be approved. -/
def VerifiedArtifact.approval (a : VerifiedArtifact) : Approval :=
  ⟨a.series, a.first, a.last, a.authorizedAt⟩

namespace Approval

variable {g g' : Approval}

/-- The text that the signature covers. -/
def signedText (g : Approval) : String := signingPayload g.series g.first g.last g.authorizedAt

def signedBytes (g : Approval) : List UInt8 := g.signedText.toUTF8.toList

def bars (g : Approval) : Nat := g.series.issuer.toList.count '|'

/-- The same facts, but for the fraction of the second. -/
structure Agrees (g g' : Approval) : Prop where
  series : g.series = g'.series
  first : g.first = g'.first
  last : g.last = g'.last
  second : g.authorizedAt.second = g'.authorizedAt.second
  isLeap : g.authorizedAt.isLeap = g'.authorizedAt.isLeap

/-- The same facts, but for the bar that sets issuer and document type apart. -/
structure BarMoved (g g' : Approval) : Prop where
  joined : g.series.joined = g'.series.joined
  bars : g.bars ≠ g'.bars
  first : g.first = g'.first
  last : g.last = g'.last
  second : g.authorizedAt.second = g'.authorizedAt.second
  isLeap : g.authorizedAt.isLeap = g'.authorizedAt.isLeap

theorem signedText_inj : g.signedText = g'.signedText ↔ g.Agrees g' ∨ g.BarMoved g' := by
  unfold signedText
  rw [signingPayload_inj]
  constructor
  · rintro ⟨hjoined, hfirst, hlast, hsecond, hleap⟩
    by_cases hbars : g.bars = g'.bars
    · exact .inl ⟨Series.eq_iff_joined.2 ⟨hjoined, hbars⟩, hfirst, hlast, hsecond, hleap⟩
    · exact .inr ⟨hjoined, hbars, hfirst, hlast, hsecond, hleap⟩
  · rintro (h | h)
    · exact ⟨(Series.eq_iff_joined.1 h.series).1, h.first, h.last, h.second, h.isLeap⟩
    · exact ⟨h.joined, h.first, h.last, h.second, h.isLeap⟩

theorem BarMoved.not_agrees (h : g.BarMoved g') : ¬ g.Agrees g' := by
  intro hagrees
  exact h.bars (Series.eq_iff_joined.1 hagrees.series).2

end Approval

theorem toList_bytes_inj {b b' : ByteArray} : b.toList = b'.toList ↔ b = b' := by
  have hloop : ∀ (b : ByteArray) (i : Nat) (r : List UInt8),
      ByteArray.toList.loop b i r = r.reverse ++ b.data.toList.drop i := by
    intro b i r
    fun_induction ByteArray.toList.loop b i r with
    | case1 i r hlt ih =>
      have hlt' : i < b.data.toList.length := hlt
      have hget : b.get! i = b.data.toList[i] := getElem!_pos b.data i hlt
      rw [ih, List.drop_eq_getElem_cons hlt', List.reverse_cons, List.append_assoc, hget]
      rfl
    | case2 i r hge =>
      have hge' : b.data.toList.length ≤ i := Nat.not_lt.1 hge
      rw [List.drop_eq_nil_of_le hge', List.append_nil]
  have hlist : ∀ b : ByteArray, b.toList = b.data.toList := fun b => hloop b 0 []
  rw [hlist, hlist, Array.toList_inj, ByteArray.ext_iff]

theorem Approval.signedBytes_inj {g g' : Approval} :
    g.signedBytes = g'.signedBytes ↔ g.Agrees g' ∨ g.BarMoved g' := by
  unfold signedBytes
  rw [toList_bytes_inj, ← signedText_inj]
  exact String.toByteArray_inj

/-! ## Accepted artifacts -/

namespace Verifier

variable {v : Verifier} {raw raw' : ByteArray} {expected : Series} {now : Instant}
  {a : VerifiedArtifact} {x : Artifact}

/-- The signature of an artifact is not forged: if it holds under a trusted key, the owner of the key
has signed these bytes. -/
def Unforged (v : Verifier) (approvals : List Approval) (raw : ByteArray) : Prop :=
  ∀ x key signature, (Json.parseBytes? raw).bind Artifact.ofJson? = some x →
    v.key? x.keyId = some key → Base64.decodeChars? x.signature.toList = some signature →
    Ed25519.verify key x.approval.signedBytes signature = true →
    ∃ g ∈ approvals, g.signedBytes = x.approval.signedBytes

theorem checkSignature_eq_ok (h : v.checkSignature x = .ok ()) :
    ∃ key signature, v.key? x.keyId = some key ∧
      Base64.decodeChars? x.signature.toList = some signature ∧
      Ed25519.verify key x.approval.signedBytes signature = true := by
  simp only [checkSignature, throw_bind] at h
  split at h
  · next key hkey =>
    split at h
    · next signature hsignature =>
      split at h
      · cases h
      split at h
      · cases h
      · next hholds => exact ⟨key, signature, hkey, hsignature, not_not.1 hholds⟩
    · cases h
  · cases h

/-- A signature holds for any place of the bar between issuer and document type. -/
theorem checkSignature_congr (x : Artifact) (h : s.joined = x.series.joined) :
    v.checkSignature { x with series := s } = v.checkSignature x := by
  have hpayload : signingPayload s x.first x.last x.authorizedAt =
      signingPayload x.series x.first x.last x.authorizedAt :=
    signingPayload_inj.2 ⟨h, rfl, rfl, rfl, rfl⟩
  unfold checkSignature
  simp only [hpayload]

/-- What is accepted was approved, if it is not forged, but for the place of the bar. -/
theorem exists_approval {approvals : List Approval} (h : v.verify raw expected now = .ok a)
    (hunforged : v.Unforged approvals raw) :
    ∃ g ∈ approvals, a.approval.Agrees g ∨ a.approval.BarMoved g := by
  obtain ⟨x, hread, -, -, hsigned, -, -, ha⟩ := exists_artifact h
  obtain ⟨key, signature, hkey, hsignature, hholds⟩ := checkSignature_eq_ok hsigned
  obtain ⟨g, hg, hbytes⟩ := hunforged x key signature hread hkey hsignature hholds
  rw [ha]
  exact ⟨g, hg, Approval.signedBytes_inj.1 hbytes.symm⟩

/-- An artifact stays accepted, now for another series, when the bar between issuer and document type
is moved to another one. -/
theorem verify_of_joined (h : v.verify raw expected now = .ok a)
    (hread : (Json.parseBytes? raw).bind Artifact.ofJson? = some x)
    (hjoined : s.joined = expected.joined)
    (hmoved : (Json.parseBytes? raw').bind Artifact.ofJson? = some { x with series := s }) :
    v.verify raw' s now = .ok { a with series := s, hash := contentHash raw'.toList } := by
  obtain ⟨x', hread', hseries, hbounds, hsigned, hexpiry, hlate, ha⟩ := exists_artifact h
  obtain rfl : x = x' := Option.some.inj (hread.symm.trans hread')
  rw [← checkSignature_congr x (hseries ▸ hjoined)] at hsigned
  have haccepted := verify_of_artifact hmoved hbounds hsigned hexpiry hlate
  rw [haccepted, ha]

end Verifier

/-- A signature binds what it covers unless the bar between issuer and document type is moved, and so
does the verifier: what it accepts was approved as it stands or with the bar in another place, and what
was approved is accepted with the bar in any other place, too. -/
theorem signature_binds (g g' : Approval) :
    ((g.signedText = g'.signedText → g.Agrees g') ↔ ¬ g.BarMoved g') ∧
    (∀ (v : Verifier) (approvals : List Approval) (raw : ByteArray) (expected : Series)
      (now : Instant) (a : VerifiedArtifact),
      v.verify raw expected now = .ok a → v.Unforged approvals raw →
      a.series = expected ∧ ∃ h ∈ approvals, a.approval.Agrees h ∨ a.approval.BarMoved h) ∧
    ∀ (v : Verifier) (raw raw' : ByteArray) (x : Artifact) (now : Instant) (a : VerifiedArtifact),
      v.verify raw x.series now = .ok a →
      (Json.parseBytes? raw).bind Artifact.ofJson? = some x → x.approval = g → g.BarMoved g' →
      (Json.parseBytes? raw').bind Artifact.ofJson? = some { x with series := g'.series } →
      v.verify raw' g'.series now =
        .ok { a with series := g'.series, hash := contentHash raw'.toList } := by
  refine ⟨⟨?_, ?_⟩, ?_, ?_⟩
  · intro hbinds hmoved
    exact hmoved.not_agrees (hbinds (Approval.signedText_inj.2 (.inr hmoved)))
  · intro hstays hsame
    exact (Approval.signedText_inj.1 hsame).resolve_right hstays
  · intro v approvals raw expected now a haccepted hunforged
    exact ⟨(Verifier.verify_eq_ok haccepted).series,
      Verifier.exists_approval haccepted hunforged⟩
  · rintro v raw raw' x now a haccepted hread rfl hbar hmoved
    exact Verifier.verify_of_joined haccepted hread hbar.joined.symm hmoved

/-! ## A bar that is moved -/

/-- An artifact for an issuer with a bar, signed by the owner of the trusted key. -/
def barredArtifact : Artifact where
  series := ⟨"A|B", "C"⟩
  first := 1
  last := 5
  authorizedAt := .epoch
  keyId := trialArtifact.keyId
  signature :=
    "oTNR2EZDLkH45qkuLB1iQNs9NnnemQtYLb8CKUD5M+ZCNiXNP6RWo3/xj9Dm7SKqGyPgxNI/uCSlRXW4YfhmAA=="

/-- Its text, but for issuer and document type. -/
def barredText (issuer docType : List Char) : List Char :=
  "\x7b\"issuer\":\"".toList ++ issuer ++ "\",\"doc_type\":\"".toList ++ docType ++
  "\",\"start\":1,\"end\":5,".toList ++
  "\"authorized_at\":\"1970-01-01T00:00:00Z\",".toList ++
  "\"key_id\":\"sha256:324be2dea8bc44461b0233e51fa48902".toList ++
  "ed6b1cc671e7739af2551e0bfe68f54e\",".toList ++
  "\"signature\":\"oTNR2EZDLkH45qkuLB1iQNs9NnnemQtYLb8CKUD5".toList ++
  "M+ZCNiXNP6RWo3/xj9Dm7SKqGyPgxNI/uCSlRXW4YfhmAA==\"\x7d".toList

def barredBytes : ByteArray := (String.ofList (barredText ['A', '|', 'B'] ['C'])).toUTF8

/-- The same with the bar of the issuer in the document type. -/
def movedBytes : ByteArray := (String.ofList (barredText ['A'] ['B', '|', 'C'])).toUTF8

theorem parse_barredBytes :
    (Json.parseBytes? barredBytes).bind Artifact.ofJson? = some barredArtifact := by
  rw [barredBytes, Json.parseBytes?_toUTF8, String.toList_ofList]
  decide +kernel

theorem parse_movedBytes : (Json.parseBytes? movedBytes).bind Artifact.ofJson? =
    some { barredArtifact with series := ⟨"A", "B|C"⟩ } := by
  rw [movedBytes, Json.parseBytes?_toUTF8, String.toList_ofList]
  decide +kernel

theorem checkSignature_barredArtifact : trialVerifier.checkSignature barredArtifact = .ok () := by
  decide +kernel

theorem verify_barredBytes : trialVerifier.verify barredBytes barredArtifact.series .epoch =
    .ok ⟨barredArtifact.series, 1, 5, .epoch, trialExpiry, contentHash barredBytes.toList,
      barredArtifact.keyId⟩ :=
  Verifier.verify_of_artifact parse_barredBytes (by decide) checkSignature_barredArtifact
    (by decide +kernel) (by decide)

def barredApproval : Approval := ⟨⟨"A|B", "C"⟩, 1, 5, .epoch⟩

def movedApproval : Approval := ⟨⟨"A", "B|C"⟩, 1, 5, .epoch⟩

theorem barMoved_trial : barredApproval.BarMoved movedApproval :=
  ⟨by decide, by decide, rfl, rfl, rfl, rfl⟩

/-- The owner of the key has approved a range of one series, and the artifact is accepted for another
one, too. -/
theorem moved_bar_accepted :
    signingPayload ⟨"A|B", "C"⟩ 1 5 .epoch = signingPayload ⟨"A", "B|C"⟩ 1 5 .epoch ∧
      (∃ a, trialVerifier.verify barredBytes ⟨"A|B", "C"⟩ .epoch = .ok a) ∧
      ∃ a, trialVerifier.verify movedBytes ⟨"A", "B|C"⟩ .epoch = .ok a :=
  ⟨signingPayload_inj.2 ⟨by decide, rfl, rfl, rfl, rfl⟩, ⟨_, verify_barredBytes⟩,
    ⟨_, Verifier.verify_of_joined verify_barredBytes parse_barredBytes (by decide)
      parse_movedBytes⟩⟩

/-- The artifact agrees with the only approval that there is, and it is accepted with the bar moved. -/
theorem signature_binds_barredBytes :
    (∃ h ∈ [barredApproval], barredApproval.Agrees h ∨ barredApproval.BarMoved h) ∧
      ∃ a, trialVerifier.verify movedBytes movedApproval.series .epoch = .ok a ∧ a.first = 1 := by
  obtain ⟨-, hbinds, hmoves⟩ := signature_binds barredApproval movedApproval
  constructor
  · have hunforged : trialVerifier.Unforged [barredApproval] barredBytes := by
      intro x key signature hread _ _ _
      rw [parse_barredBytes] at hread
      cases hread
      exact ⟨barredApproval, List.mem_singleton_self _, rfl⟩
    obtain ⟨-, hbound⟩ := hbinds _ _ _ _ _ _ verify_barredBytes hunforged
    exact hbound
  · have hmoved := hmoves _ _ _ _ _ _ verify_barredBytes parse_barredBytes rfl barMoved_trial
      parse_movedBytes
    exact ⟨_, hmoved, rfl⟩

end FolioLedger
