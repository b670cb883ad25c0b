/-!
# UTF-8 that may be damaged

Texts from elsewhere may hold bytes that belong to no character.  Each longest run of bytes that
begins a character and does not complete it is read as one replacement character.
-/

namespace FolioLedger.Utf8

/-- The bytes of a text. -/
def encode (cs : List Char) : List UInt8 :=
  cs.flatMap String.utf8EncodeChar

/-- What a first byte asks for: the number of further bytes, and the bounds of the next one. -/
def shape? (b : UInt8) : Option (Nat × UInt8 × UInt8) :=
  if b < 0x80 then some (0, 0x80, 0xBF)
  else if b < 0xC2 then none
  else if b < 0xE0 then some (1, 0x80, 0xBF)
  else if b = 0xE0 then some (2, 0xA0, 0xBF)
  else if b = 0xED then some (2, 0x80, 0x9F)
  else if b < 0xF0 then some (2, 0x80, 0xBF)
  else if b = 0xF0 then some (3, 0x90, 0xBF)
  else if b < 0xF4 then some (3, 0x80, 0xBF)
  else if b = 0xF4 then some (3, 0x80, 0x8F)
  else none

/-- The bytes that go on with a character, at most `n` of them. -/
def continuation : Nat → UInt8 → UInt8 → List UInt8 → List UInt8
  | n + 1, lo, hi, b :: bs =>
    if lo ≤ b ∧ b ≤ hi then b :: continuation n 0x80 0xBF bs else []
  | _, _, _, _ => []

/-- The number that a first byte and the bytes after it denote. -/
def codePoint (b : UInt8) (more : List UInt8) : Nat :=
  let lead := match more.length with
    | 0 => b.toNat
    | 1 => b.toNat % 0x20
    | 2 => b.toNat % 0x10
    | _ => b.toNat % 0x08
  more.foldl (fun n c => n * 0x40 + c.toNat % 0x40) lead

/-- The character that stands for bytes that are none. -/
def replacement : Char := '\ufffd'

/-- The characters of bytes, with replacements for what is damaged. -/
def decode : List UInt8 → List Char
  | [] => []
  | b :: bs =>
    match shape? b with
    | none => replacement :: decode bs
    | some (n, lo, hi) =>
      let more := continuation n lo hi bs
      let c := if more.length = n then Char.ofNat (codePoint b more) else replacement
      c :: decode (bs.drop more.length)
termination_by bs => bs.length
decreasing_by
  all_goals simp only [List.length_cons, List.length_drop]
  all_goals omega

end FolioLedger.Utf8
