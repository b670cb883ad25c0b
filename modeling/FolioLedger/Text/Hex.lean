/-!
# Hexadecimal text

Bytes as pairs of hexadecimal digits; written in lower case, read in either.
-/

namespace FolioLedger.Hex

/-- The two digits of a byte. -/
def ofByte (b : UInt8) : List Char :=
  [Nat.digitChar (b.toNat / 16), Nat.digitChar (b.toNat % 16)]

/-- The digits of bytes. -/
def encode (bytes : ByteArray) : String :=
  String.ofList (bytes.toList.flatMap ofByte)

/-- The value of a digit. -/
def digit? (c : Char) : Option Nat :=
  if '0' ≤ c ∧ c ≤ '9' then some (c.toNat - '0'.toNat)
  else if 'a' ≤ c ∧ c ≤ 'f' then some (c.toNat - 'a'.toNat + 10)
  else if 'A' ≤ c ∧ c ≤ 'F' then some (c.toNat - 'A'.toNat + 10)
  else none

/-- The number that digits of a base up to 16 denote. -/
def inBase? (base : Nat) (cs : List Char) : Option Nat := do
  let values ← cs.mapM digit?
  if values.all (· < base) then some (values.foldl (fun n d => base * n + d) 0) else none

/-- The bytes of pairs of digits. -/
def decodeChars? : List Char → Option (List UInt8)
  | [] => some []
  | a :: b :: rest => do
    let a ← digit? a
    let b ← digit? b
    let bytes ← decodeChars? rest
    some (UInt8.ofNat (16 * a + b) :: bytes)
  | _ => none

/-- The bytes that a text of digits denotes. -/
def decode? (s : String) : Option ByteArray :=
  (decodeChars? s.toList).map fun bytes => ⟨bytes.toArray⟩

end FolioLedger.Hex
