import FolioLedger.Json.Value
import FolioLedger.Text.Hex
import FolioLedger.Text.Numeral

/-!
# Reading JSON

A reader of RFC 8259 documents.  Each function takes the rest of the text and gives back what
follows the part that it read.  The recursion is bounded by the length of the text, since every
nested value starts at least one character further on.
-/

namespace FolioLedger.Json

/-- The white space of JSON. -/
def isSpace (c : Char) : Bool :=
  c = ' ' || c = '\n' || c = '\t' || c = '\r'

/-- The text without leading white space. -/
def skipSpace (cs : List Char) : List Char :=
  cs.dropWhile isSpace

/-! ## Numbers -/

/-- Whether `mantissa * 10 ^ exponent` is finite as a double: it has to stay below the middle
between the largest double and `2 ^ 1024`. -/
def isFinite (mantissa : Nat) (exponent : Int) : Bool :=
  let bound := (1 <<< 1024) - (1 <<< 970)
  let magnitude : Int := (Nat.toDigits 10 mantissa).length + exponent
  if mantissa = 0 ∨ magnitude < 309 then true
  else if 309 < magnitude then false
  else if 0 ≤ exponent then mantissa * Nat.pow 10 exponent.toNat < bound
  else mantissa < bound * Nat.pow 10 (-exponent).toNat

/-- The value of a number in its parts. -/
def ofNumber (negative : Bool) (whole : List Char) (fraction : Option (List Char))
    (exponent : Option Int) : Json :=
  let n : Int := if negative then -(Numeral.value whole : Int) else Numeral.value whole
  let fits := -9223372036854775808 ≤ n ∧ n < 18446744073709551616 ∧ ¬ (negative ∧ n = 0)
  if fraction = none ∧ exponent = none ∧ fits then .int n
  else
    let digits := fraction.getD []
    .real (isFinite (Numeral.value (whole ++ digits)) (exponent.getD 0 - digits.length))

/-- One or more digits. -/
def readDigits? (cs : List Char) : Option (List Char × List Char) :=
  let (run, rest) := (cs.takeWhile Numeral.isDigit, cs.dropWhile Numeral.isDigit)
  if run = [] then none else some (run, rest)

/-- The digits before the point: a lone zero, or digits that start with another. -/
def readWhole? : List Char → Option (List Char × List Char)
  | '0' :: cs =>
    match cs with
    | c :: _ => if Numeral.isDigit c then none else some (['0'], cs)
    | [] => some (['0'], cs)
  | cs => readDigits? cs

/-- A point and digits, if there is a point. -/
def readFraction? : List Char → Option (Option (List Char) × List Char)
  | '.' :: cs => (readDigits? cs).map fun (run, rest) => (some run, rest)
  | cs => some (none, cs)

/-- The exponent, if there is one. -/
def readExponent? : List Char → Option (Option Int × List Char)
  | c :: cs =>
    if c = 'e' ∨ c = 'E' then
      match cs with
      | '-' :: ds =>
        (readDigits? ds).map fun (run, rest) => (some (-(Numeral.value run : Int)), rest)
      | '+' :: ds => (readDigits? ds).map fun (run, rest) => (some (Numeral.value run : Int), rest)
      | ds => (readDigits? ds).map fun (run, rest) => (some (Numeral.value run : Int), rest)
    else some (none, c :: cs)
  | [] => some (none, [])

/-- A number. -/
def readNumber? (cs : List Char) : Option (Json × List Char) := do
  let (negative, cs) := match cs with
    | '-' :: ds => (true, ds)
    | ds => (false, ds)
  let (whole, cs) ← readWhole? cs
  let (fraction, cs) ← readFraction? cs
  let (exponent, cs) ← readExponent? cs
  some (ofNumber negative whole fraction exponent, cs)

/-! ## Strings -/

/-- What one element of a string contributes: a character, or a unit of UTF-16 that an escape
names by its number. -/
inductive Element where
  | char (c : Char)
  | unit (n : Nat)

/-- Four hexadecimal digits. -/
def readUnit? : List Char → Option (Nat × List Char)
  | a :: b :: c :: d :: rest => do
    let a ← Hex.digit? a
    let b ← Hex.digit? b
    let c ← Hex.digit? c
    let d ← Hex.digit? d
    some (((a * 16 + b) * 16 + c) * 16 + d, rest)
  | _ => none

/-- The escape after a backslash. -/
def readEscape? : List Char → Option (Element × List Char)
  | '"' :: cs => some (.char '"', cs)
  | '\\' :: cs => some (.char '\\', cs)
  | '/' :: cs => some (.char '/', cs)
  | 'b' :: cs => some (.char '\x08', cs)
  | 'f' :: cs => some (.char '\x0c', cs)
  | 'n' :: cs => some (.char '\n', cs)
  | 'r' :: cs => some (.char '\r', cs)
  | 't' :: cs => some (.char '\t', cs)
  | 'u' :: cs => (readUnit? cs).map fun (n, rest) => (.unit n, rest)
  | _ => none

/-- The elements of a string up to its closing quote. -/
def readElements? : Nat → List Char → Option (List Element × List Char)
  | 0, _ => none
  | _ + 1, [] => none
  | fuel + 1, c :: cs =>
    if c = '"' then some ([], cs)
    else if c = '\\' then do
      let (e, cs) ← readEscape? cs
      let (es, cs) ← readElements? fuel cs
      some (e :: es, cs)
    else if c.toNat < 32 then none
    else do
      let (es, cs) ← readElements? fuel cs
      some (.char c :: es, cs)

/-- The text that elements denote: a high and a low surrogate make one character, and either
without the other makes the whole no text. -/
def textOf? : List Element → Option (List Char)
  | [] => some []
  | .char c :: es => (textOf? es).map (c :: ·)
  | .unit n :: es =>
    if 0xD800 ≤ n ∧ n < 0xDC00 then
      match es with
      | .unit m :: es =>
        if 0xDC00 ≤ m ∧ m < 0xE000 then
          (textOf? es).map (Char.ofNat (0x10000 + (n - 0xD800) * 0x400 + (m - 0xDC00)) :: ·)
        else none
      | _ => none
    else if 0xDC00 ≤ n ∧ n < 0xE000 then none
    else (textOf? es).map (Char.ofNat n :: ·)

/-- A string after its opening quote. -/
def readText? (cs : List Char) : Option (Option String × List Char) :=
  (readElements? (cs.length + 1) cs).map fun (es, rest) => ((textOf? es).map String.ofList, rest)

/-! ## Values -/

/-- The text after a given word. -/
def afterWord? : List Char → List Char → Option (List Char)
  | [], cs => some cs
  | w :: ws, c :: cs => if w = c then afterWord? ws cs else none
  | _ :: _, [] => none

mutual

/-- A value, after any white space. -/
def readValue? : Nat → List Char → Option (Json × List Char)
  | 0, _ => none
  | fuel + 1, text =>
    match skipSpace text with
    | [] => none
    | c :: cs =>
      if c = '"' then (readText? cs).map fun (t, rest) => (.string t, rest)
      else if c = '[' then
        match skipSpace cs with
        | ']' :: rest => some (.array [], rest)
        | rest => (readItems? fuel rest).map fun (items, r) => (.array items, r)
      else if c = '{' then
        match skipSpace cs with
        | '}' :: rest => some (.object [], rest)
        | rest => (readMembers? fuel rest).map fun (members, r) => (.object members, r)
      else if c = 'n' then (afterWord? ['u', 'l', 'l'] cs).map fun r => (.null, r)
      else if c = 't' then (afterWord? ['r', 'u', 'e'] cs).map fun r => (.bool true, r)
      else if c = 'f' then (afterWord? ['a', 'l', 's', 'e'] cs).map fun r => (.bool false, r)
      else readNumber? (c :: cs)

/-- The items of an array up to its bracket, at least one. -/
def readItems? : Nat → List Char → Option (List Json × List Char)
  | 0, _ => none
  | fuel + 1, cs => do
    let (item, cs) ← readValue? fuel cs
    match skipSpace cs with
    | ',' :: rest =>
      let (items, rest) ← readItems? fuel rest
      some (item :: items, rest)
    | ']' :: rest => some ([item], rest)
    | _ => none

/-- The members of an object up to its brace, at least one. -/
def readMembers? : Nat → List Char → Option (List (Option String × Json) × List Char)
  | 0, _ => none
  | fuel + 1, cs =>
    match skipSpace cs with
    | '"' :: cs => do
      let (key, cs) ← readText? cs
      match skipSpace cs with
      | ':' :: cs =>
        let (value, cs) ← readValue? fuel cs
        match skipSpace cs with
        | ',' :: rest =>
          let (members, rest) ← readMembers? fuel rest
          some ((key, value) :: members, rest)
        | '}' :: rest => some ([(key, value)], rest)
        | _ => none
      | _ => none
    | _ => none

end

/-- The value that a whole text denotes. -/
def parse? (cs : List Char) : Option Json := do
  let (value, rest) ← readValue? (cs.length + 1) cs
  if skipSpace rest = [] then some value else none

end FolioLedger.Json
