import FolioLedger.Crypto.Edwards25519
import FolioLedger.Crypto.Sha2

/-!
# Ed25519 signatures

Keys, signing and checking as in RFC 8032.  A check recomputes the first half of the signature and
compares bytes, and a second half at or above the order of the group is refused, so the bytes of a
signature cannot be varied.
-/

namespace FolioLedger

/-- A public key: the 32 bytes, and the point that they denote. -/
structure PublicKey where
  bytes : List UInt8
  point : CurvePoint
deriving DecidableEq

/-- A secret key: its seed of 32 bytes. -/
structure SigningKey where
  seed : List UInt8
deriving DecidableEq

namespace Ed25519

/-- The order of the group that the base point generates. -/
def order : Nat := (1 <<< 252) + 27742317777372353535851937790883648493

/-- The number that a hash denotes, modulo the order of the group. -/
def hashNumber (message : List UInt8) : Nat :=
  littleEndian (sha512.digest message) % order

/-- The factor of a secret key: the first half of the hashed seed with the lowest three and the
highest bit cleared and the second highest bit set. -/
def factor (key : SigningKey) : Nat :=
  let n := littleEndian ((sha512.digest key.seed).take 32)
  n % (1 <<< 254) / 8 * 8 + (1 <<< 254)

/-- The public key that belongs to a secret key. -/
def publicKey (key : SigningKey) : PublicKey :=
  let point := CurvePoint.base.smul (factor key)
  ⟨point.encode, point⟩

/-- Signs a message. -/
def sign (key : SigningKey) (message : List UInt8) : List UInt8 :=
  let nonce := hashNumber ((sha512.digest key.seed).drop 32 ++ message)
  let commitment := (CurvePoint.base.smul nonce).encode
  let challenge := hashNumber (commitment ++ (publicKey key).bytes ++ message)
  commitment ++ littleEndianBytes 32 ((nonce + challenge * factor key) % order)

/-- Whether the bytes are a signature of the message by the owner of the key. -/
def verify (key : PublicKey) (message signature : List UInt8) : Bool :=
  let commitment := signature.take 32
  let response := littleEndian (signature.drop 32)
  let challenge := hashNumber (commitment ++ key.bytes ++ message)
  signature.length == 64 && response < order &&
    ((CurvePoint.base.smul response).add (key.point.neg.smul challenge)).encode == commitment

end Ed25519

namespace PublicKey

/-- The key with the given bytes, if they denote a point. -/
def ofBytes? (bytes : List UInt8) : Option PublicKey :=
  (CurvePoint.decode? bytes).map fun point => ⟨bytes, point⟩

end PublicKey

end FolioLedger
