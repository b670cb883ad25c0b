import FolioLedger.Document.Artifact
import FolioLedger.Proofs.Ledger.Edit

/-!
# Artifacts that are accepted

What a verifier has checked of an artifact that it accepts (`Verifier.verify_eq_ok`), that it accepts
what passes these checks (`Verifier.verify_of_artifact`), and one artifact that does.
-/

namespace FolioLedger

/-- What holds of an artifact that was accepted for a series at an instant. -/
structure Verifier.Accepts (v : Verifier) (raw : ByteArray) (expected : Series) (now : Instant)
    (a : VerifiedArtifact) : Prop where
  series : a.series = expected
  bounds : 1 ≤ a.first ∧ a.first ≤ a.last
  expiresAt : a.authorizedAt.addMonths? v.validityMonths = some a.expiresAt
  inTime : ¬ a.expiresAt ≤ now
  hash : a.hash = contentHash raw.toList

namespace Verifier

variable {v : Verifier} {raw : ByteArray} {expected : Series} {now : Instant}

/-- What is accepted is an artifact for the series that is signed and in time. -/
theorem exists_artifact {a : VerifiedArtifact} (h : v.verify raw expected now = .ok a) :
    ∃ x, (Json.parseBytes? raw).bind Artifact.ofJson? = some x ∧ x.series = expected ∧
      (1 ≤ x.first ∧ x.first ≤ x.last) ∧ v.checkSignature x = .ok () ∧
      x.authorizedAt.addMonths? v.validityMonths = some a.expiresAt ∧ ¬ a.expiresAt ≤ now ∧
      a = ⟨x.series, x.first, x.last, x.authorizedAt, a.expiresAt, contentHash raw.toList, x.keyId⟩ := by
  simp only [verify, throw_bind] at h
  split at h
  · next x hread =>
    split at h
    · cases h
    next hissuer =>
    split at h
    · cases h
    next hdocType =>
    split at h
    · cases h
    next hbounds =>
    split at h
    · cases h
    next hsigned =>
    split at h
    · next expiresAt hexpiry =>
      split at h
      · cases h
      next hlate =>
      cases h
      refine ⟨x, hread, ?_, by omega, hsigned, hexpiry, hlate, rfl⟩
      obtain ⟨issuer, docType⟩ := expected
      obtain ⟨⟨issuer', docType'⟩, _⟩ := x
      simp_all
    · cases h
  · cases h

theorem verify_eq_ok {a : VerifiedArtifact} (h : v.verify raw expected now = .ok a) :
    v.Accepts raw expected now a := by
  obtain ⟨x, -, hseries, hbounds, -, hexpiry, hlate, ha⟩ := exists_artifact h
  rw [ha]
  exact ⟨hseries, hbounds, hexpiry, hlate, rfl⟩

/-- An artifact that can be read, is signed and is in time is accepted for its own series. -/
theorem verify_of_artifact {a : Artifact} {expiresAt : Instant}
    (read : (Json.parseBytes? raw).bind Artifact.ofJson? = some a)
    (bounds : 1 ≤ a.first ∧ a.first ≤ a.last) (signed : v.checkSignature a = .ok ())
    (expiry : a.authorizedAt.addMonths? v.validityMonths = some expiresAt)
    (inTime : ¬ expiresAt ≤ now) :
    v.verify raw a.series now = .ok ⟨a.series, a.first, a.last, a.authorizedAt, expiresAt,
      contentHash raw.toList, a.keyId⟩ := by
  have hbounds : ¬ (a.first < 1 ∨ a.last < a.first) := by omega
  simp only [verify, throw_bind, read, ne_eq, not_true_eq_false, if_false, hbounds, signed, expiry,
    inTime]
  rfl

end Verifier

/-- The document of a text's bytes is the document of its characters. -/
theorem Json.parseBytes?_toUTF8 (s : String) : Json.parseBytes? s.toUTF8 = Json.parse? s.toList := by
  have hread : String.fromUTF8? s.toUTF8 = some s := by
    unfold String.fromUTF8?
    split
    · rfl
    · next hinvalid => exact absurd s.isValidUTF8 hinvalid
  rw [Json.parseBytes?, hread]

/-! ## A signed artifact -/

def trialVerifier : Verifier := ⟨[Ed25519.publicKey ⟨List.replicate 32 7⟩], 6⟩

/-- An artifact for five numbers, signed by the owner of the trusted key. -/
def trialArtifact : Artifact where
  series := ⟨"A", "T"⟩
  first := 1
  last := 5
  authorizedAt := .epoch
  keyId := "sha256:324be2dea8bc44461b0233e51fa48902ed6b1cc671e7739af2551e0bfe68f54e"
  signature :=
    "Od+JENtHFXIzcWGZOE/MbKYJWkkP8W5aq1l6VDM17SuCBYOtsk7JeRCOl32TsNMTunnoS6sOEMw5UcsCid3WBw=="

/-- The text of the artifact, in pieces since long literals are slow to take apart. -/
def trialText : List Char :=
  "\x7b\"issuer\":\"A\",\"doc_type\":\"T\",\"start\":1,\"end\":5,".toList ++
  "\"authorized_at\":\"1970-01-01T00:00:00Z\",".toList ++
  "\"key_id\":\"sha256:324be2dea8bc44461b0233e51fa48902".toList ++
  "ed6b1cc671e7739af2551e0bfe68f54e\",".toList ++
  "\"signature\":\"Od+JENtHFXIzcWGZOE/MbKYJWkkP8W5aq1l6VDM1".toList ++
  "7SuCBYOtsk7JeRCOl32TsNMTunnoS6sOEMw5UcsCid3WBw==\"\x7d".toList

def trialBytes : ByteArray := (String.ofList trialText).toUTF8

/-- Midnight before 1 July 1970, six months after the authorization. -/
def trialExpiry : Instant := (Instant.ofParts? 15638400 0).getD .epoch

def trialVerified : VerifiedArtifact where
  series := trialArtifact.series
  first := trialArtifact.first
  last := trialArtifact.last
  authorizedAt := trialArtifact.authorizedAt
  expiresAt := trialExpiry
  hash := contentHash trialBytes.toList
  keyId := trialArtifact.keyId

theorem parse_trialText : (Json.parse? trialText).bind Artifact.ofJson? = some trialArtifact := by
  decide +kernel

theorem checkSignature_trialArtifact : trialVerifier.checkSignature trialArtifact = .ok () := by
  decide +kernel

theorem verify_trialBytes :
    trialVerifier.verify trialBytes trialArtifact.series .epoch = .ok trialVerified := by
  refine Verifier.verify_of_artifact ?_ (by decide) checkSignature_trialArtifact (by decide +kernel)
    (by decide)
  rw [trialBytes, Json.parseBytes?_toUTF8, String.toList_ofList, parse_trialText]

end FolioLedger
