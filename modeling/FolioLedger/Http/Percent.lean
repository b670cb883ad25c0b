import FolioLedger.Text.Hex
import FolioLedger.Text.Utf8

/-!
# Percent-encoding

The characters that may not stand in a part of a URL are written as the percent signs and digits of
their bytes.  Each part has its own set of such characters; controls and all that is not ASCII are
in every set, a percent sign in none.
-/

namespace FolioLedger.Http.Percent

/-- Controls and characters beyond ASCII. -/
def isControl (c : Char) : Bool :=
  c.toNat < 0x20 || 0x7E < c.toNat

/-- What a fragment may not hold. -/
def inFragment (c : Char) : Bool :=
  isControl c || c ∈ [' ', '"', '<', '>', '\x60']

/-- What a query may not hold. -/
def inQuery (c : Char) : Bool :=
  isControl c || c ∈ [' ', '"', '#', '<', '>']

/-- What a query may not hold in the schemes of the web. -/
def inWebQuery (c : Char) : Bool :=
  inQuery c || c == '\x27'

/-- What a path may not hold. -/
def inPath (c : Char) : Bool :=
  inFragment c || c ∈ ['#', '?', '\x7b', '\x7d']

/-- What a name or password may not hold. -/
def inUserInfo (c : Char) : Bool :=
  inPath c || c ∈ ['/', ':', ';', '=', '@', '[', '\\', ']', '^', '|']

/-- A byte behind its percent sign. -/
def ofByte (b : UInt8) : List Char :=
  '%' :: (Hex.ofByte b).map Char.toUpper

/-- A text with the characters of a set encoded. -/
def encode (set : Char → Bool) (cs : List Char) : String :=
  String.ofList (cs.flatMap fun c =>
    if set c then (String.utf8EncodeChar c).flatMap ofByte else [c])

/-- The bytes of a text in which encoded bytes may stand. -/
def decode : List Char → List UInt8
  | '%' :: a :: b :: cs =>
    match Hex.digit? a, Hex.digit? b with
    | some high, some low => UInt8.ofNat (16 * high + low) :: decode cs
    | _, _ => Utf8.encode ['%'] ++ decode (a :: b :: cs)
  | c :: cs => Utf8.encode [c] ++ decode cs
  | [] => []

end FolioLedger.Http.Percent
