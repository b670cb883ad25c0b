/-!
# Blank text

White space by the Unicode property White_Space, and the checks built on it.  A text is blank when
nothing but white space is in it; an issuer, a document type or a reason may not be blank.
-/

namespace FolioLedger

/-- The characters with the Unicode property White_Space. -/
def isBlankChar (c : Char) : Bool :=
  let n := c.toNat
  (0x09 ≤ n && n ≤ 0x0D) || n == 0x20 || n == 0x85 || n == 0xA0 || n == 0x1680 ||
    (0x2000 ≤ n && n ≤ 0x200A) || n == 0x2028 || n == 0x2029 || n == 0x202F || n == 0x205F ||
    n == 0x3000

/-- The text from its first character that is not blank. -/
def dropBlanks (cs : List Char) : List Char :=
  cs.dropWhile isBlankChar

/-- Whether the text holds white space only. -/
def isBlank (s : String) : Bool :=
  s.toList.all isBlankChar

end FolioLedger
