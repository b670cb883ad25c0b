import FolioLedger.Json.Reader

/-!
# JSON in bytes

A document of bytes is read as UTF-8.  Bytes that belong to no character are spelt out in a way
that is refused everywhere but inside a string, and there makes the string no text.  So they spoil
a document only where its text is asked for.
-/

namespace FolioLedger.Json

/-- Stands for a byte of no character: after a backslash `x` is no escape, and a lone low surrogate
denotes no text. -/
def strayByte : List Char :=
  ['x', '\\', 'u', 'd', 'c', '0', '0']

/-- The characters of bytes in UTF-8, with stray bytes spelt out. -/
def charsOfBytes : Nat → List UInt8 → List Char
  | 0, _ => []
  | _ + 1, [] => []
  | fuel + 1, b :: bs =>
    let width := if b < 0x80 then 1 else if b < 0xE0 then 2 else if b < 0xF0 then 3 else 4
    match String.fromUTF8? ⟨((b :: bs).take width).toArray⟩ with
    | some s => s.toList ++ charsOfBytes fuel (bs.drop (width - 1))
    | none => strayByte ++ charsOfBytes fuel bs

/-- The value that a document of bytes denotes. -/
def parseBytes? (raw : ByteArray) : Option Json :=
  match String.fromUTF8? raw with
  | some s => parse? s.toList
  | none => parse? (charsOfBytes raw.size raw.toList)

end FolioLedger.Json
