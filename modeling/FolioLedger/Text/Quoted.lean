import FolioLedger.Text.Blank

/-!
# Quoted text in messages

A text between double quotes in which nothing is hidden: quotes, backslashes and all that leaves no
mark of its own on paper, such as controls, spaces other than the plain one and combining marks, are
written as escapes.
-/

namespace FolioLedger.Quoted

/-- Bounds of code points. -/
abbrev Span := Nat × Nat

/-- Whether a code point lies in one of some spans. -/
def within (spans : List Span) (n : Nat) : Bool :=
  spans.any fun (lo, hi) => lo ≤ n && n ≤ hi

/-- Controls, format characters and private use. -/
def unseen : List Span :=
  [(0x00, 0x1F), (0x7F, 0x9F), (0xAD, 0xAD), (0x600, 0x605), (0x61C, 0x61C), (0x6DD, 0x6DD),
    (0x70F, 0x70F), (0x8E2, 0x8E2), (0x180E, 0x180E), (0x200B, 0x200F), (0x202A, 0x202E),
    (0x2060, 0x206F), (0xE000, 0xF8FF), (0xFEFF, 0xFEFF), (0xFFF0, 0xFFFB), (0xFFFE, 0xFFFF),
    (0x110BD, 0x110BD), (0x1BCA0, 0x1BCA3), (0x1D173, 0x1D17A), (0xE0000, 0x10FFFF)]

/-- Marks that join the character before them. -/
def combining : List Span :=
  [(0x300, 0x36F), (0x483, 0x489), (0x591, 0x5BD), (0x610, 0x61A), (0x64B, 0x65F),
    (0x1AB0, 0x1AFF), (0x1DC0, 0x1DFF), (0x20D0, 0x20F0), (0x302A, 0x302F), (0x3099, 0x309A),
    (0xFE00, 0xFE0F), (0xFE20, 0xFE2F)]

/-- Whether a character is written as its code point. -/
def isEscaped (c : Char) : Bool :=
  within unseen c.toNat || within combining c.toNat || (isBlankChar c && c != ' ')

/-- The spelling of a character. -/
def escape (c : Char) : List Char :=
  if c = '"' then ['\\', '"']
  else if c = '\\' then ['\\', '\\']
  else if c = '\n' then ['\\', 'n']
  else if c = '\r' then ['\\', 'r']
  else if c = '\t' then ['\\', 't']
  else if c.toNat = 0 then ['\\', '0']
  else if isEscaped c then
    ['\\', 'u', '\x7b'] ++ Nat.toDigits 16 c.toNat ++ ['\x7d']
  else [c]

/-- A text in quotes. -/
def render (s : String) : String :=
  String.ofList ('"' :: s.toList.flatMap escape ++ ['"'])

end FolioLedger.Quoted
