/-!
# Punycode

How a label of a host name with characters beyond ASCII is spelt in ASCII: the ASCII characters
first, then for each other character, in order of code points, how far to count on from the one
before, in digits whose range adapts.
-/

namespace FolioLedger.Http.Punycode

/-- A digit below 36: letters first. -/
def digitChar (d : Nat) : Char :=
  if d < 26 then Char.ofNat ('a'.toNat + d) else Char.ofNat ('0'.toNat + (d - 26))

/-- The least value that does not end a number at place `k`. -/
def threshold (k bias : Nat) : Nat :=
  max 1 (min 26 (k - bias))

/-- How often a delta is shortened, and what is left of it; `fuel` bounds the divisions. -/
def shorten : Nat → Nat → Nat → Nat × Nat
  | fuel + 1, delta, k => if 455 < delta then shorten fuel (delta / 35) (k + 36) else (delta, k)
  | 0, delta, k => (delta, k)

/-- The bias after a delta that brought the number of characters to `count`. -/
def adapt (delta count : Nat) (first : Bool) : Nat :=
  let delta := if first then delta / 700 else delta / 2
  let delta := delta + delta / count
  let (rest, k) := shorten delta delta 0
  k + 36 * rest / (rest + 38)

/-- The digits of a delta; `fuel` bounds their number. -/
def digits : Nat → Nat → Nat → Nat → List Char
  | fuel + 1, bias, k, q =>
    let t := threshold k bias
    if q < t then [digitChar q]
    else digitChar (t + (q - t) % (36 - t)) :: digits fuel bias (k + 36) ((q - t) / (36 - t))
  | 0, _, _, _ => []

/-- How far a spelling has come. -/
structure Progress where
  written : List Char
  delta : Nat
  bias : Nat
  /-- The characters that are spelt. -/
  count : Nat

/-- Takes one character of the label into account while characters `m` are spelt. -/
def Progress.see (basic m : Nat) (p : Progress) (c : Char) : Progress :=
  if c.toNat < m then { p with delta := p.delta + 1 }
  else if c.toNat = m then
    { written := p.written ++ digits (p.delta + 1) p.bias 36 p.delta
      delta := 0
      bias := adapt p.delta (p.count + 1) (p.count = basic)
      count := p.count + 1 }
  else p

/-- Spells the characters of each code point of an ascending list. -/
def Progress.spell (label : List Char) (basic : Nat) : List Nat → Nat → Progress → Progress
  | [], _, p => p
  | m :: more, n, p =>
    let p := { p with delta := p.delta + (m - n) * (p.count + 1) }
    let p := label.foldl (see basic m) p
    spell label basic more (m + 1) { p with delta := p.delta + 1 }

/-- The code points beyond ASCII of a label, ascending. -/
def extended (label : List Char) : List Nat :=
  (((label.filter (0x80 ≤ ·.toNat)).map Char.toNat).mergeSort).eraseDups

/-- The spelling of a label. -/
def encode (label : List Char) : List Char :=
  let basic := label.filter (·.toNat < 0x80)
  let p := Progress.spell label basic.length (extended label) 0x80 ⟨[], 0, 72, basic.length⟩
  basic ++ (if basic.isEmpty then [] else ['-']) ++ p.written

end FolioLedger.Http.Punycode
