import FolioLedger.Proofs.Document.Format
import FolioLedger.Proofs.Replenish.Artifact
import FolioLedger.Proofs.Text.Base64

/-!
# What is signed is accepted

The signature is computed from the facts of an artifact and checked against the facts that are read from
its document.  These are the same (`Artifact.exact_format`), so under a trusted key every document that
was signed is accepted until its validity ends, and tells what was signed
(`Verifier.verify_signArtifact`).
-/

namespace FolioLedger

/-- The artifact that a key's owner writes. -/
def signedArtifact (key : SigningKey) (s : Series) (first last : Nat) (t : Instant) : Artifact where
  series := s
  first := first
  last := last
  authorizedAt := t
  keyId := (Ed25519.publicKey key).id
  signature := String.ofList (Base64.encodeBytes
    (Ed25519.sign key (signingPayload s first last t).toUTF8.toList))

theorem signArtifact_eq (key : SigningKey) (s : Series) (first last : Nat) (t : Instant) :
    signArtifact key s first last t = (signedArtifact key s first last t).toJson.pretty := rfl

namespace Verifier

variable {v : Verifier} {key : SigningKey} {k : PublicKey} {s : Series} {first last : Nat}
  {t expiresAt now : Instant}

theorem checkSignature_signedArtifact (htrusted : v.key? (Ed25519.publicKey key).id = some k)
    (hholds : Ed25519.verify k (signingPayload s first last t).toUTF8.toList
      (Ed25519.sign key (signingPayload s first last t).toUTF8.toList) = true) :
    v.checkSignature (signedArtifact key s first last t) = .ok () := by
  have hlength : (Ed25519.sign key (signingPayload s first last t).toUTF8.toList).length = 64 := by
    simp only [Ed25519.verify, Bool.and_eq_true, beq_iff_eq] at hholds
    exact hholds.1.1
  have hdecode := Base64.decodeChars?_encodeBytes
    (Ed25519.sign key (signingPayload s first last t).toUTF8.toList)
  unfold checkSignature signedArtifact
  simp only [htrusted, String.toList_ofList, hdecode, hlength, hholds, ne_eq, not_true_eq_false,
    if_false]
  rfl

/-- What was signed for a series is accepted under a trusted key until its validity ends, and tells what
was signed. -/
theorem verify_signArtifact (htrusted : v.key? (Ed25519.publicKey key).id = some k)
    (hholds : Ed25519.verify k (signingPayload s first last t).toUTF8.toList
      (Ed25519.sign key (signingPayload s first last t).toUTF8.toList) = true)
    (hbounds : 1 ≤ first ∧ first ≤ last) (hword : last < 18446744073709551616)
    (hexpiry : t.addMonths? v.validityMonths = some expiresAt) (hnow : now < expiresAt) :
    v.verify (signArtifact key s first last t).toUTF8 s now = .ok {
      series := s
      first := first
      last := last
      authorizedAt := t
      expiresAt := expiresAt
      hash := contentHash (signArtifact key s first last t).toUTF8.toList
      keyId := (Ed25519.publicKey key).id } ∧
    Instant.MonthsLater v.validityMonths t expiresAt := by
  have hfirst : (signedArtifact key s first last t).first < 18446744073709551616 :=
    Nat.lt_of_le_of_lt hbounds.2 hword
  have hread : (Json.parseBytes? (signArtifact key s first last t).toUTF8).bind Artifact.ofJson? =
      some (signedArtifact key s first last t) := by
    have hparse : Json.parse? (signedArtifact key s first last t).toJson.pretty.toList =
        some (signedArtifact key s first last t).toJson :=
      Json.parse?_pretty (Artifact.exact_format.fits _ ⟨hfirst, hword⟩)
    have hvalue : Artifact.ofJson? (signedArtifact key s first last t).toJson =
        some (signedArtifact key s first last t) :=
      Artifact.exact_format.ofJson?_toJson _ ⟨hfirst, hword⟩
    rw [signArtifact_eq, Json.parseBytes?_toUTF8, hparse, Option.bind_some, hvalue]
  have hlate : ¬ expiresAt ≤ now := by
    rintro (hlt | ⟨heq, hle⟩) <;> rcases hnow with hlt' | ⟨heq', hlt'⟩ <;> omega
  exact ⟨verify_of_artifact hread hbounds (checkSignature_signedArtifact htrusted hholds) hexpiry hlate,
    Instant.monthsLater_of_addMonths? hexpiry⟩

end Verifier

/-! ## A signature in a leap second -/

def trialKey : SigningKey := ⟨List.replicate 32 7⟩

/-- A series whose names have to be spelt with escapes, and in more than one byte. -/
def escapedSeries : Series := ⟨"A\"\\|\n\x01", "é𝄞"⟩

/-- In the leap second at the end of the year 2016. -/
def leapInstant : Instant := ⟨1483228799, 1123456789, by decide, by decide, by decide, by decide⟩

/-- In the last second of June 2017. -/
def leapExpiry : Instant := (leapInstant.addMonths? 6).getD .epoch

theorem verify_holds_of_escapedSeries :
    Ed25519.verify (Ed25519.publicKey trialKey)
      (signingPayload escapedSeries 1 18446744073709551615 leapInstant).toUTF8.toList
      (Ed25519.sign trialKey
        (signingPayload escapedSeries 1 18446744073709551615 leapInstant).toUTF8.toList) = true := by
  decide +kernel

theorem verify_signArtifact_escapedSeries :
    trialVerifier.verify
      (signArtifact trialKey escapedSeries 1 18446744073709551615 leapInstant).toUTF8
      escapedSeries leapInstant = .ok {
        series := escapedSeries
        first := 1
        last := 18446744073709551615
        authorizedAt := leapInstant
        expiresAt := leapExpiry
        hash := contentHash
          (signArtifact trialKey escapedSeries 1 18446744073709551615 leapInstant).toUTF8.toList
        keyId := (Ed25519.publicKey trialKey).id } ∧
      Instant.MonthsLater 6 leapInstant leapExpiry :=
  Verifier.verify_signArtifact (v := trialVerifier) (k := Ed25519.publicKey trialKey)
    (by decide +kernel) verify_holds_of_escapedSeries (by decide) (by decide) (by decide +kernel)
    (by decide +kernel)

end FolioLedger
