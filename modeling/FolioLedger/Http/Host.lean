import FolioLedger.Http.Percent
import FolioLedger.Http.Punycode
import FolioLedger.Text.Numeral

/-!
# Hosts

The host of a URL in its one spelling: a name in lower case, four decimal numbers, or an address of
eight words in brackets.  What does not denote a host is refused.
-/

namespace FolioLedger.Http.Host

/-- The parts of a text between separators. -/
def splitAt (sep : Char) : List Char → List (List Char)
  | [] => [[]]
  | c :: cs =>
    match splitAt sep cs with
    | part :: parts => if c = sep then [] :: part :: parts else (c :: part) :: parts
    | [] => [[c]]

/-! ## Four numbers -/

/-- A number of an address: hexadecimal after `0x`, octal after a zero, else decimal. -/
def number? : List Char → Option Nat
  | [] => none
  | '0' :: 'x' :: cs => Hex.inBase? 16 cs
  | '0' :: 'X' :: cs => Hex.inBase? 16 cs
  | ['0'] => some 0
  | '0' :: cs => Hex.inBase? 8 cs
  | cs => Hex.inBase? 10 cs

/-- The labels of a name; a dot at its end does not begin another. -/
def labels (cs : List Char) : List (List Char) :=
  let parts := splitAt '.' cs
  if parts.length > 1 ∧ parts.getLast? = some [] then parts.dropLast else parts

/-- Whether the last label of a name is a number, so that the name has to be an address. -/
def endsInNumber (cs : List Char) : Bool :=
  match (labels cs).getLast? with
  | some l => l ≠ [] && (l.all Char.isDigit || (l.take 2 ∈ [['0', 'x'], ['0', 'X']] &&
      (number? l).isSome))
  | none => false

/-- Four numbers with dots. -/
def renderV4 (n : Nat) : String :=
  let part := fun k => Numeral.padded 1 ((n >>> (8 * k)) % 256)
  part 3 ++ "." ++ part 2 ++ "." ++ part 1 ++ "." ++ part 0

/-- The address that up to four numbers denote; the last one fills what is left. -/
def readV4? (cs : List Char) : Option Nat := do
  let numbers ← (labels cs).mapM number?
  let last ← numbers.getLast?
  let leading := numbers.dropLast
  let room := 8 * (4 - leading.length)
  if leading.length ≤ 3 ∧ leading.all (· < 256) ∧ last < 1 <<< room then
    some ((leading.foldl (fun n d => 256 * n + d) 0) <<< room + last)
  else none

/-! ## Eight words -/

/-- A word of up to four hexadecimal digits. -/
def word? (cs : List Char) : Option Nat :=
  if 0 < cs.length ∧ cs.length ≤ 4 then Hex.inBase? 16 cs else none

/-- A decimal number below 256 without needless zeros. -/
def octet? (cs : List Char) : Option Nat := do
  let n ← if cs = [] then none else Hex.inBase? 10 cs
  if n < 256 ∧ (cs = ['0'] ∨ cs.head? ≠ some '0') then some n else none

/-- The two words of four decimal numbers with dots. -/
def dotted? (cs : List Char) : Option (List Nat) := do
  match ← (splitAt '.' cs).mapM octet? with
  | [a, b, c, d] => some [256 * a + b, 256 * c + d]
  | _ => none

/-- The words between colons; the last part of an address may be dotted. -/
def words? (mayBeDotted : Bool) : List (List Char) → Option (List Nat)
  | [] => some []
  | [part] =>
    if mayBeDotted && part.contains '.' then dotted? part else (word? part).map ([·])
  | part :: parts => do return (← word? part) :: (← words? mayBeDotted parts)

/-- The parts before the first pair of colons and the text after it. -/
def splitPair : List Char → Option (List Char × List Char)
  | ':' :: ':' :: cs => some ([], cs)
  | c :: cs => (splitPair cs).map fun (before, after) => (c :: before, after)
  | [] => none

/-- The words of one side of a pair of colons. -/
def side? (mayBeDotted : Bool) (cs : List Char) : Option (List Nat) :=
  if cs = [] then some [] else words? mayBeDotted (splitAt ':' cs)

/-- The eight words of an address; a pair of colons stands for at least one word of zero. -/
def readV6? (cs : List Char) : Option (List Nat) := do
  match splitPair cs with
  | none =>
    let words ← words? true (splitAt ':' cs)
    if words.length = 8 then some words else none
  | some (before, after) =>
    let before ← side? false before
    let after ← side? true after
    if before.length + after.length ≤ 7 then
      some (before ++ List.replicate (8 - before.length - after.length) 0 ++ after)
    else none

/-- The length of the zeros that words begin with. -/
def zeros (words : List Nat) : Nat :=
  (words.takeWhile (· = 0)).length

/-- The place and length of the first longest run of zeros. -/
def longestZeros (words : List Nat) : Nat × Nat :=
  (List.range words.length).foldl (fun (best : Nat × Nat) i =>
    let n := zeros (words.drop i)
    if best.2 < n then (i, n) else best) (0, 0)

/-- A word in the fewest hexadecimal digits. -/
def renderWord (n : Nat) : String :=
  String.ofList (Nat.toDigits 16 n)

/-- An address of eight words, its first longest run of zeros, if of two or more, left out. -/
def renderV6 (words : List Nat) : String :=
  let (place, length) := longestZeros words
  let join := fun (ws : List Nat) => String.intercalate ":" (ws.map renderWord)
  if 2 ≤ length then
    "[" ++ join (words.take place) ++ "::" ++ join (words.drop (place + length)) ++ "]"
  else "[" ++ join words ++ "]"

/-! ## Names -/

/-- What no name may hold, once it is decoded. -/
def isForbidden (c : Char) : Bool :=
  c.toNat ≤ 0x20 || c.toNat = 0x7F ||
    c ∈ ['#', '%', '/', ':', '<', '>', '?', '@', '[', '\\', ']', '^', '|']

/-- A label in ASCII. -/
def label (cs : List Char) : List Char :=
  if cs.all (·.toNat < 0x80) then cs else "xn--".toList ++ Punycode.encode cs

/-- The characters of bytes that are UTF-8. -/
def text? (bytes : List UInt8) : Option (List Char) :=
  (String.fromUTF8? ⟨bytes.toArray⟩).map String.toList

/-- A host of the schemes of the web. -/
def read? (cs : List Char) : Option String := do
  match cs with
  | '[' :: inner =>
    if inner.getLast? = some ']' then (readV6? inner.dropLast).map renderV6 else none
  | _ =>
    let name ← text? (Percent.decode cs)
    let name := ((splitAt '.' (name.map Char.toLower)).map label).intersperse ['.'] |>.flatten
    if name = [] ∨ name.any isForbidden then none
    else if endsInNumber name then (readV4? name).map renderV4
    else some (String.ofList name)

/-- A host of other schemes, which is kept as it is written. -/
def readOther? (cs : List Char) : Option String := do
  match cs with
  | '[' :: inner =>
    if inner.getLast? = some ']' then (readV6? inner.dropLast).map renderV6 else none
  | _ =>
    if cs.any fun c => isForbidden c && c != '%' && (0x20 ≤ c.toNat || c.toNat = 0) then none
    else some (Percent.encode Percent.isControl cs)

end FolioLedger.Http.Host
