import FolioLedger.Crypto.Ed25519
import FolioLedger.Text.Base64
import FolioLedger.Text.Hex

/-!
# Public key files and key ids

A public key is exchanged as a SubjectPublicKeyInfo structure in DER, which for this algorithm is
a fixed header and the 32 bytes of the key, and in files in the textual form between the lines
`BEGIN PUBLIC KEY` and `END PUBLIC KEY`.  A key's id is the hash of the structure.
-/

namespace FolioLedger

/-- The hash of bytes as it appears in documents. -/
def contentHash (raw : List UInt8) : String :=
  "sha256:" ++ String.ofList ((sha256.digest raw).flatMap Hex.ofByte)

namespace PublicKey

/-- What stands before the key in its DER structure. -/
def derHeader : List UInt8 :=
  [0x30, 0x2a, 0x30, 0x05, 0x06, 0x03, 0x2b, 0x65, 0x70, 0x03, 0x21, 0x00]

/-- The DER structure of a key. -/
def toDer (key : PublicKey) : List UInt8 :=
  derHeader ++ key.bytes

/-- The key of a DER structure. -/
def ofDer? (der : List UInt8) : Option PublicKey :=
  if der.take derHeader.length = derHeader then ofBytes? (der.drop derHeader.length) else none

/-- The id of a key. -/
def id (key : PublicKey) : String :=
  contentHash key.toDer

end PublicKey

namespace KeyFile

def beginMark : List Char := "-----BEGIN ".toList

def beginLine : List Char := "-----BEGIN PUBLIC KEY-----".toList

def endLine : List Char := "-----END PUBLIC KEY-----".toList

/-- The text after a given beginning. -/
def after? (start cs : List Char) : Option (List Char) :=
  if cs.take start.length = start then some (cs.drop start.length) else none

/-- The text after one line end. -/
def afterLineEnd? : List Char → Option (List Char)
  | '\r' :: '\n' :: cs => some cs
  | '\n' :: cs => some cs
  | '\r' :: cs => some cs
  | _ => none

/-- The text before one line end that closes it; the text comes and goes reversed. -/
def beforeLineEnd? : List Char → Option (List Char)
  | '\n' :: '\r' :: cs => some cs
  | '\n' :: cs => some cs
  | '\r' :: cs => some cs
  | _ => none

/-- The text from the first line that starts with the mark; nothing before it may be a NUL. -/
def skipPreamble? : List Char → Option (List Char)
  | [] => none
  | c :: cs =>
    if c = '\x00' then none
    else if c = '\n' ∧ cs.take beginMark.length = beginMark then some cs
    else skipPreamble? cs

/-- The text between the two lines.  One line end has to stand after it, a second may. -/
def body? (cs : List Char) : Option (List Char) := do
  let text ← if cs.take beginMark.length = beginMark then some cs else skipPreamble? cs
  let text ← afterLineEnd? (← after? beginLine text)
  let reversed := text.reverse
  let reversed := (beforeLineEnd? reversed).getD reversed
  let reversed ← after? endLine.reverse reversed
  let reversed ← beforeLineEnd? reversed
  some ((beforeLineEnd? reversed).getD reversed).reverse

/-- The key that a file's text holds. -/
def read? (text : String) : Option PublicKey := do
  let bytes ← Base64.decodeChars? (← body? text.toList)
  PublicKey.ofDer? bytes

/-- The text of a file with the key. -/
def render (key : PublicKey) : String :=
  String.ofList (beginLine ++ '\n' :: Base64.encodeBytes key.toDer ++ '\n' :: endLine ++ ['\n'])

end KeyFile

end FolioLedger
