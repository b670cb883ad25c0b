import FolioLedger.Crypto.KeyFile
import FolioLedger.Failure
import FolioLedger.Json.Bytes
import FolioLedger.Json.Printer
import FolioLedger.Json.Record

/-!
# Authorization artifacts

An artifact is the document by which the authority approves a range.  Its signature covers the
issuer, the document type, the bounds and the second of the authorization.  It is accepted when a
trusted key signed it and the validity that starts with the authorization has not passed.
-/

namespace FolioLedger

/-- An artifact as it is written. -/
structure Artifact where
  series : Series
  first : Nat
  last : Nat
  authorizedAt : Instant
  keyId : String
  /-- The signature in Base64. -/
  signature : String
deriving DecidableEq

namespace Artifact

/-- The document of an artifact. -/
def toJson (a : Artifact) : Json :=
  .record [
    ("issuer", .str a.series.issuer),
    ("doc_type", .str a.series.docType),
    ("start", .nat a.first),
    ("end", .nat a.last),
    ("authorized_at", .ofInstant a.authorizedAt),
    ("key_id", .str a.keyId),
    ("signature", .str a.signature)]

/-- The artifact of a document. -/
def ofJson? (j : Json) : Option Artifact := do
  match ← j.fields? ["issuer", "doc_type", "start", "end", "authorized_at", "key_id",
      "signature"] with
  | [issuer, docType, first, last, authorizedAt, keyId, signature] =>
    some {
      series := ⟨← Json.needed Json.text? issuer, ← Json.needed Json.text? docType⟩
      first := ← Json.needed Json.nat? first
      last := ← Json.needed Json.nat? last
      authorizedAt := ← Json.needed Json.instant? authorizedAt
      keyId := ← Json.needed Json.text? keyId
      signature := ← Json.needed Json.text? signature }
  | _ => none

end Artifact

/-- The text that the signature of an artifact covers. -/
def signingPayload (series : Series) (first last : Nat) (authorizedAt : Instant) : String :=
  series.issuer ++ "|" ++ series.docType ++ "|" ++ numberText first ++ "|" ++ numberText last ++
    "|" ++ authorizedAt.renderSeconds

/-- The artifact that a key's owner writes. -/
def signArtifact (key : SigningKey) (series : Series) (first last : Nat)
    (authorizedAt : Instant) : String :=
  let payload := signingPayload series first last authorizedAt
  (Artifact.toJson {
    series := series
    first := first
    last := last
    authorizedAt := authorizedAt
    keyId := (Ed25519.publicKey key).id
    signature := String.ofList
      (Base64.encodeBytes (Ed25519.sign key payload.toUTF8.toList)) }).pretty

/-- What an accepted artifact establishes. -/
structure VerifiedArtifact where
  series : Series
  first : Nat
  last : Nat
  authorizedAt : Instant
  expiresAt : Instant
  /-- The hash of the bytes of the artifact. -/
  hash : String
  keyId : String
deriving DecidableEq

/-- The keys that are trusted, and how long an authorization is good for. -/
structure Verifier where
  trusted : List PublicKey
  validityMonths : Nat

namespace Verifier

/-- The trusted key with an id. -/
def key? (v : Verifier) (keyId : String) : Option PublicKey :=
  v.trusted.find? (·.id = keyId)

/-- The ids of the trusted keys, each once and in order. -/
def keyIds (v : Verifier) : List String :=
  (v.trusted.map (·.id)).eraseDups.mergeSort (· ≤ ·)

/-- Checks that the signature of an artifact is one by a trusted key. -/
def checkSignature (v : Verifier) (a : Artifact) : Except SignatureFault Unit := do
  let some key := v.key? a.keyId | throw (.untrustedKey a.keyId)
  let some signature := Base64.decodeChars? a.signature.toList | throw .notBase64
  if signature.length ≠ 64 then throw .wrongLength
  let payload := signingPayload a.series a.first a.last a.authorizedAt
  if ¬ Ed25519.verify key payload.toUTF8.toList signature then throw .mismatch

/-- Accepts the bytes of an artifact for a series at an instant, or says why not. -/
def verify (v : Verifier) (raw : ByteArray) (expected : Series) (now : Instant) :
    Except Failure VerifiedArtifact := do
  let some a := (Json.parseBytes? raw).bind Artifact.ofJson?
    | throw (.invalidArtifact .malformed)
  if a.series.issuer ≠ expected.issuer then
    throw (.issuerMismatch expected.issuer a.series.issuer)
  if a.series.docType ≠ expected.docType then
    throw (.invalidArtifact (.otherDocType expected.docType a.series.docType))
  if a.first < 1 ∨ a.last < a.first then
    throw (.invalidArtifact (.invalidBounds a.first a.last))
  match v.checkSignature a with
  | .error fault => throw (.signatureInvalid fault)
  | .ok () => pure ()
  let some expiresAt := a.authorizedAt.addMonths? v.validityMonths
    | throw (.invalidArtifact .expiryOutOfRange)
  if expiresAt ≤ now then throw (.invalidArtifact (.expired expiresAt))
  return {
    series := a.series
    first := a.first
    last := a.last
    authorizedAt := a.authorizedAt
    expiresAt := expiresAt
    hash := contentHash raw.toList
    keyId := a.keyId }

end Verifier

end FolioLedger
