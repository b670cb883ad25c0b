/-!
# Decimal numerals

Reading runs of ASCII digits off the front of a text, and writing numbers padded to a width.
-/

namespace FolioLedger

namespace Numeral

/-- The value of an ASCII digit. -/
def digit? (c : Char) : Option Nat :=
  if '0' ≤ c ∧ c ≤ '9' then some (c.toNat - '0'.toNat) else none

/-- Whether the character is an ASCII digit. -/
def isDigit (c : Char) : Bool :=
  (digit? c).isSome

/-- The number that a run of digits denotes. -/
def value (digits : List Char) : Nat :=
  digits.foldl (fun n c => 10 * n + (digit? c).getD 0) 0

/-- Splits a text after its leading digits, of which at most `most` are taken. -/
def splitDigits (most : Nat) (cs : List Char) : List Char × List Char :=
  let run := (cs.take most).takeWhile isDigit
  (run, cs.drop run.length)

/-- Reads a number of at least `least` and at most `most` digits off the front of a text. -/
def read? (least most : Nat) (cs : List Char) : Option (Nat × List Char) :=
  let (run, rest) := splitDigits most cs
  if run.length < least then none else some (value run, rest)

/-- The number that a text of digits, and nothing else, denotes. -/
def ofDigits? (cs : List Char) : Option Nat :=
  if cs ≠ [] ∧ cs.all isDigit then some (value cs) else none

/-- A number below `limit`, written in digits after an optional plus sign. -/
def parseNat? (limit : Nat) (s : String) : Option Nat := do
  let digits := match s.toList with
    | '+' :: cs => cs
    | cs => cs
  let n ← ofDigits? digits
  if n < limit then some n else none

/-- A number of absolute value at most `2 ^ 63`, that a signed word of 64 bits can hold, written
in digits after an optional sign. -/
def parseInt64? (s : String) : Option Int := do
  match s.toList with
  | '-' :: cs =>
    let n ← ofDigits? cs
    if n ≤ 1 <<< 63 then some (-(n : Int)) else none
  | '+' :: cs =>
    let n ← ofDigits? cs
    if n < 1 <<< 63 then some n else none
  | cs =>
    let n ← ofDigits? cs
    if n < 1 <<< 63 then some n else none

/-- The decimal digits of a number, with zeros in front up to the given width. -/
def padded (width n : Nat) : String :=
  let digits := Nat.toDigits 10 n
  String.ofList (List.replicate (width - digits.length) '0' ++ digits)

/-- The decimal form of an integer, with a minus sign for a negative one. -/
def signed (n : Int) : String :=
  match n with
  | .ofNat k => padded 1 k
  | .negSucc k => "-" ++ padded 1 (k + 1)

end Numeral

end FolioLedger
