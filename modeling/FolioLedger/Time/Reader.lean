import FolioLedger.Text.Blank
import FolioLedger.Text.Numeral
import FolioLedger.Time.Instant

/-!
# Reading instants

Two grammars.  `Instant.read?` is the lenient one of documents: fields may be short and blanks may
stand between them.  `Instant.readStrict?` is RFC 3339 to the letter, and `Date.read?` reads a
plain date.  In all of them second 60 is a leap second, and the instant is the local time less its
offset.
-/

namespace FolioLedger

/-- What a timestamp says, field by field. -/
structure TimestampFields where
  date : Date
  hour : Nat
  minute : Nat
  second : Nat
  nano : Nat
  /-- Seconds east of UTC. -/
  offset : Int

namespace TimestampFields

/-- The instant that the fields denote, if each is in its range and the date exists. -/
def instant? (f : TimestampFields) : Option Instant := do
  if 23 < f.hour ∨ 59 < f.minute ∨ 60 < f.second then none
  if f.offset ≤ -86400 ∨ 86400 ≤ f.offset then none
  let leap := f.second = 60
  let second := if leap then 59 else f.second
  let nano := if leap then f.nano + 1000000000 else f.nano
  let wall ← Instant.ofDate? f.date (f.hour * 3600 + f.minute * 60 + second) nano
  Instant.ofParts? (wall.second - f.offset) wall.nano

end TimestampFields

namespace Timestamp

/-- Drops a given character off the front of a text. -/
def expect? (c : Char) : List Char → Option (List Char)
  | d :: cs => if d = c then some cs else none
  | [] => none

/-- Blanks, then a number of one or two digits. -/
def short? (cs : List Char) : Option (Nat × List Char) :=
  Numeral.read? 1 2 (dropBlanks cs)

/-- Blanks, then a year: four digits at most, or a sign and any number of digits. -/
def year? (cs : List Char) : Option (Int × List Char) :=
  match dropBlanks cs with
  | '-' :: rest => (Numeral.read? 1 rest.length rest).map fun (n, r) => (-(n : Int), r)
  | '+' :: rest => (Numeral.read? 1 rest.length rest).map fun (n, r) => ((n : Int), r)
  | rest => (Numeral.read? 1 4 rest).map fun (n, r) => ((n : Int), r)

/-- Year, month and day; `gap` says what may stand before the two hyphens. -/
def date? (gap : List Char → List Char) (cs : List Char) : Option (Date × List Char) := do
  let (year, cs) ← year? cs
  let (month, cs) ← short? (← expect? '-' (gap cs))
  let (day, cs) ← short? (← expect? '-' (gap cs))
  some (⟨year, month, day⟩, cs)

/-- The character between date and time. -/
def divider? : List Char → Option (List Char)
  | 'T' :: cs => some cs
  | 't' :: cs => some cs
  | ' ' :: cs => some cs
  | _ => none

/-- The fraction of a second in nanoseconds, zero if there is none.  Digits past the ninth are
dropped. -/
def fraction? : List Char → Option (Nat × List Char)
  | '.' :: cs =>
    let (run, rest) := Numeral.splitDigits 9 cs
    if run = [] then none
    else
      some (Numeral.value (run ++ List.replicate (9 - run.length) '0'),
        rest.dropWhile Numeral.isDigit)
  | cs => some (0, cs)

/-- Hours and minutes of an offset; `gap` reads what stands between the two. -/
def offsetAmount? (gap : List Char → Option (List Char)) (cs : List Char) :
    Option (Int × List Char) := do
  let (hours, cs) ← Numeral.read? 2 2 cs
  let (minutes, cs) ← Numeral.read? 2 2 (← gap cs)
  if 59 < minutes then none
  some (((hours * 3600 + minutes * 60 : Nat) : Int), cs)

/-- An offset from UTC in seconds: `Z`, or a sign and an amount. -/
def offset? (gap : List Char → Option (List Char)) : List Char → Option (Int × List Char)
  | 'Z' :: cs => some (0, cs)
  | 'z' :: cs => some (0, cs)
  | '+' :: cs => offsetAmount? gap cs
  | '-' :: cs => (offsetAmount? gap cs).map fun (n, r) => (-n, r)
  | '\u2212' :: cs => (offsetAmount? gap cs).map fun (n, r) => (-n, r)
  | _ => none

/-- An offset where the zone may also be called UTC. -/
def zone? (cs : List Char) : Option (Int × List Char) :=
  if (cs.take 3).map Char.toLower = ['u', 't', 'c'] then some (0, cs.drop 3)
  else offset? (fun r => some (r.dropWhile fun c => c = ':' || isBlankChar c)) cs

end Timestamp

open Timestamp

/-- Reads a timestamp of a document. -/
def Instant.read? (s : String) : Option Instant := do
  let (date, cs) ← date? dropBlanks s.toList
  let (hour, cs) ← short? (← divider? cs)
  let (minute, cs) ← short? (← expect? ':' (dropBlanks cs))
  let (second, cs) ← short? (← expect? ':' (dropBlanks cs))
  let (nano, cs) ← fraction? cs
  let (offset, cs) ← zone? (dropBlanks cs)
  if dropBlanks cs ≠ [] then none
  TimestampFields.instant? ⟨date, hour, minute, second, nano, offset⟩

/-- Reads a timestamp in the strict form of RFC 3339. -/
def Instant.readStrict? (s : String) : Option Instant := do
  let (year, cs) ← Numeral.read? 4 4 s.toList
  let (month, cs) ← Numeral.read? 2 2 (← expect? '-' cs)
  let (day, cs) ← Numeral.read? 2 2 (← expect? '-' cs)
  let (hour, cs) ← Numeral.read? 2 2 (← divider? cs)
  let (minute, cs) ← Numeral.read? 2 2 (← expect? ':' cs)
  let (second, cs) ← Numeral.read? 2 2 (← expect? ':' cs)
  let (nano, cs) ← fraction? cs
  let (offset, cs) ← offset? (expect? ':') cs
  if cs ≠ [] then none
  TimestampFields.instant? ⟨⟨year, month, day⟩, hour, minute, second, nano, offset⟩

/-- Reads a plain date that can be represented. -/
def Date.read? (s : String) : Option Date := do
  let (date, cs) ← date? id s.toList
  if cs ≠ [] then none
  (Instant.ofDate? date 0 0).map fun _ => date

end FolioLedger
