import FolioLedger.Text.Hex
import FolioLedger.Yaml.Node

/-!
# YAML scalars

The scalars of YAML in their styles: plain, in single or double quotes, and as literal or folded
block.  A break inside a scalar that is not a literal block is folded: it becomes a space, and of
several breaks one is dropped.
-/

namespace FolioLedger.Yaml

/-- A place in a document: the text from there on, with its line and column. -/
structure Place where
  rest : List Char
  line : Nat := 0
  column : Nat := 0
  /-- The nodes that were given names so far. -/
  anchors : List (String × Yaml) := []

namespace Place

/-- The place after some characters. -/
def advance (p : Place) : Nat → Place
  | 0 => p
  | n + 1 =>
    match p.rest with
    | [] => p
    | c :: cs =>
      advance (if c = '\n' then { p with rest := cs, line := p.line + 1, column := 0 }
        else { p with rest := cs, column := p.column + 1 }) n

/-- The place at a given rest of the text. -/
def moveTo (p : Place) (rest : List Char) : Place :=
  p.advance (p.rest.length - rest.length)

/-- Whether nothing follows. -/
def isEnd (p : Place) : Bool := p.rest.isEmpty

end Place

/-- A space or a tab. -/
def isGap (c : Char) : Bool := c = ' ' || c = '\t'

/-- Whether a blank, a break or the end of the text comes next. -/
def endsWord : List Char → Bool
  | [] => true
  | c :: _ => isGap c || c = '\n'

/-- The characters that give structure in a flow collection. -/
def isFlowMark (c : Char) : Bool := c ∈ [',', '[', ']', '{', '}']

/-- Whether a line that marks the limits of a document starts here. -/
def atMarker (p : Place) : Bool :=
  p.column = 0 && (p.rest.take 3 = ['-', '-', '-'] || p.rest.take 3 = ['.', '.', '.']) &&
    endsWord (p.rest.drop 3)

/-- The text without blanks at its end. -/
def dropGapsRight (cs : List Char) : List Char :=
  (cs.reverse.dropWhile isGap).reverse

/-- What stands for some breaks in a row. -/
def foldBreaks (breaks : Nat) : List Char :=
  if breaks ≤ 1 then [' '] else List.replicate (breaks - 1) '\n'

/-! ## Plain scalars -/

/-- Whether a plain scalar may start with this text. -/
def startsPlain : List Char → Bool
  | [] => false
  | c :: cs =>
    if c = '-' ∨ c = '?' ∨ c = ':' then !endsWord cs
    else !(isFlowMark c || isGap c || c = '\n' ||
      c ∈ ['#', '&', '*', '!', '|', '>', '\'', '"', '%', '@'] || c.toNat = 0x60)

/-- Splits a line after its part of a plain scalar: before a colon that a blank follows, a
comment, or a mark of a flow collection. -/
def splitPlain (flow : Bool) : Bool → List Char → List Char × List Char
  | _, [] => ([], [])
  | gap, c :: cs =>
    let stops := c = '\n' || (c = '#' && gap) || (c = ':' && endsWord cs) ||
      (flow && (isFlowMark c ||
        (c = ':' && (cs.head?.any fun d => isFlowMark d || d = '?'))))
    if stops then ([], c :: cs)
    else
      let (run, rest) := splitPlain flow (isGap c) cs
      (c :: run, rest)

/-- Looks past breaks and indents for more of a plain scalar: the number of breaks, and the place
where the text goes on. -/
def nextPlainLine (breaks : Nat) : Nat → Place → Nat × Place
  | 0, p => (breaks, p)
  | fuel + 1, p =>
    match p.rest with
    | '\n' :: _ => nextPlainLine (breaks + 1) fuel (p.advance 1)
    | c :: _ => if isGap c then nextPlainLine breaks fuel (p.advance 1) else (breaks, p)
    | [] => (breaks, p)

/-- A plain scalar in a block indented by more than `indent`, or in a flow collection. -/
def readPlain (flow : Bool) (indent : Int) : Nat → Place → List Char × Place
  | 0, p => ([], p)
  | fuel + 1, p =>
    let (run, rest) := splitPlain flow false p.rest
    let text := dropGapsRight run
    let stop := p.moveTo rest
    match rest with
    | '\n' :: _ =>
      let (breaks, next) := nextPlainLine 0 (rest.length + 1) stop
      let continues := !next.isEnd && !atMarker next && (flow || indent < next.column) &&
        next.rest.head? ≠ some '#' && (splitPlain flow false next.rest).1 ≠ []
      if continues then
        let (more, stop) := readPlain flow indent fuel next
        (text ++ foldBreaks breaks ++ more, stop)
      else (text, p.advance text.length)
    | _ => (text, p.advance text.length)

/-! ## Quoted scalars -/

/-- Adds the text after a fold: blanks around the breaks are dropped. -/
def foldQuoted (before : List Char) (breaks : Nat) : List Char :=
  (before.reverse.dropWhile isGap).reverse ++ foldBreaks breaks

/-- The breaks and indents from here on: their number, and the rest of the text. -/
def skipBreaks : Nat → List Char → Nat × List Char
  | breaks, '\n' :: cs => skipBreaks (breaks + 1) cs
  | breaks, c :: cs => if isGap c then skipBreaks breaks cs else (breaks, c :: cs)
  | breaks, [] => (breaks, [])

/-- A scalar in single quotes after the opening one; a quote inside is written twice. -/
def readSingle : Nat → List Char → List Char → Option (List Char × List Char)
  | 0, _, _ => none
  | _ + 1, _, [] => none
  | fuel + 1, acc, '\'' :: '\'' :: cs => readSingle fuel (acc ++ ['\'']) cs
  | _ + 1, acc, '\'' :: cs => some (acc, cs)
  | fuel + 1, acc, '\n' :: cs =>
    let (breaks, rest) := skipBreaks 1 cs
    readSingle fuel (foldQuoted acc breaks) rest
  | fuel + 1, acc, c :: cs => readSingle fuel (acc ++ [c]) cs

/-- A character given by a number of hexadecimal digits. -/
def readCode (digits : Nat) (cs : List Char) : Option (Char × List Char) := do
  let run := cs.take digits
  if run.length < digits then none
  let values ← run.mapM Hex.digit?
  let n := values.foldl (fun n d => 16 * n + d) 0
  if (0xD800 ≤ n ∧ n ≤ 0xDFFF) ∨ 0x10FFFF < n then none
  some (Char.ofNat n, cs.drop digits)

/-- What an escape of one letter stands for. -/
def escape? (c : Char) : Option Char :=
  match c with
  | '0' => some '\x00'
  | 'a' => some '\x07'
  | 'b' => some '\x08'
  | 't' => some '\t'
  | '\t' => some '\t'
  | 'n' => some '\n'
  | 'v' => some '\x0b'
  | 'f' => some '\x0c'
  | 'r' => some '\r'
  | 'e' => some '\x1b'
  | ' ' => some ' '
  | '"' => some '"'
  | '/' => some '/'
  | '\\' => some '\\'
  | 'N' => some '\u0085'
  | '_' => some '\u00a0'
  | 'L' => some '\u2028'
  | 'P' => some '\u2029'
  | _ => none

/-- A scalar in double quotes after the opening one. -/
def readDouble : Nat → List Char → List Char → Option (List Char × List Char)
  | 0, _, _ => none
  | _ + 1, _, [] => none
  | _ + 1, acc, '"' :: cs => some (acc, cs)
  | fuel + 1, acc, '\\' :: '\n' :: cs => readDouble fuel acc (skipBreaks 0 cs).2
  | fuel + 1, acc, '\\' :: 'x' :: cs => do
    let (c, cs) ← readCode 2 cs
    readDouble fuel (acc ++ [c]) cs
  | fuel + 1, acc, '\\' :: 'u' :: cs => do
    let (c, cs) ← readCode 4 cs
    readDouble fuel (acc ++ [c]) cs
  | fuel + 1, acc, '\\' :: 'U' :: cs => do
    let (c, cs) ← readCode 8 cs
    readDouble fuel (acc ++ [c]) cs
  | fuel + 1, acc, '\\' :: c :: cs => do readDouble fuel (acc ++ [← escape? c]) cs
  | fuel + 1, acc, '\n' :: cs =>
    let (breaks, rest) := skipBreaks 1 cs
    readDouble fuel (foldQuoted acc breaks) rest
  | fuel + 1, acc, c :: cs => readDouble fuel (acc ++ [c]) cs

/-! ## Block scalars -/

/-- What a block scalar keeps of the breaks at its end. -/
inductive Chomp where
  | strip
  | clip
  | keep
deriving DecidableEq

/-- The marks after the opening sign of a block scalar: chomping and indent, in either order. -/
def readHeader : List Char → Chomp × Option Nat × List Char
  | '+' :: c :: cs => if '1' ≤ c ∧ c ≤ '9' then (.keep, some (c.toNat - '0'.toNat), cs)
      else (.keep, none, c :: cs)
  | '-' :: c :: cs => if '1' ≤ c ∧ c ≤ '9' then (.strip, some (c.toNat - '0'.toNat), cs)
      else (.strip, none, c :: cs)
  | ['+'] => (.keep, none, [])
  | ['-'] => (.strip, none, [])
  | c :: cs =>
    if '1' ≤ c ∧ c ≤ '9' then
      match cs with
      | '+' :: cs => (.keep, some (c.toNat - '0'.toNat), cs)
      | '-' :: cs => (.strip, some (c.toNat - '0'.toNat), cs)
      | cs => (.clip, some (c.toNat - '0'.toNat), cs)
    else (.clip, none, c :: cs)
  | [] => (.clip, none, [])

/-- The lines of a text, each without its break. -/
def linesOf : List Char → List (List Char)
  | [] => [[]]
  | '\n' :: cs => [] :: linesOf cs
  | c :: cs =>
    match linesOf cs with
    | l :: ls => (c :: l) :: ls
    | [] => [[c]]

/-- The spaces at the start of a line. -/
def indentOf (line : List Char) : Nat := (line.takeWhile (· = ' ')).length

/-- Whether a line holds spaces only. -/
def isEmptyLine (line : List Char) : Bool := line.all (· = ' ')

/-- The indent of a block: the given one, or that of its first line that is not empty. -/
def blockIndent (parent : Int) (given : Option Nat) (lines : List (List Char)) : Nat :=
  match given with
  | some n => (max parent 0).toNat + n
  | none =>
    let least := (max (parent + 1) 1).toNat
    match lines.find? (!isEmptyLine ·) with
    | some l => max least (indentOf l)
    | none => lines.foldl (fun n l => max n l.length) least

/-- The lines of a block: up to the first that is not empty and indented too little. -/
def blockLines (indent : Nat) (lines : List (List Char)) : List (List Char) :=
  lines.takeWhile fun l => (isEmptyLine l && l.length ≤ indent) || indent ≤ indentOf l

/-- What stands between two lines of a folded block, with some empty lines between them.  Lines
that start with a blank keep their breaks. -/
def foldJoint (before : Option (List Char)) (empty : Nat) (after : List Char) : List Char :=
  match before with
  | none => List.replicate empty '\n'
  | some l =>
    if l.head?.any isGap ∨ after.head?.any isGap then List.replicate (empty + 1) '\n'
    else if empty = 0 then [' ']
    else List.replicate empty '\n'

/-- Puts the lines of a folded block together, after a line and some empty lines. -/
def foldLines (before : Option (List Char)) (empty : Nat) : List (List Char) → List Char
  | [] => []
  | [] :: ls => foldLines before (empty + 1) ls
  | l :: ls => foldJoint before empty l ++ l ++ foldLines (some l) 0 ls

/-- Puts the lines of a literal block together. -/
def joinLines (lines : List (List Char)) : List Char :=
  (List.intersperse ['\n'] lines).flatten

/-- A block scalar after its opening sign, in a block with the given indent. -/
def readBlock (folded : Bool) (parent : Int) (cs : List Char) : Option (List Char × List Char) :=
  let (chomp, given, rest) := readHeader cs
  let comment := rest.dropWhile isGap
  let header := if comment.length < rest.length ∧ comment.head? = some '#'
    then comment.dropWhile (· ≠ '\n') else comment
  match header with
  | [] => some ([], [])
  | '\n' :: body =>
    let lines := linesOf body
    let indent := blockIndent parent given lines
    let taken := blockLines indent lines
    -- A last line without a break is empty unless it holds text.
    let closed := taken.length < lines.length
    let rows := taken.map (·.drop indent)
    let content := (rows.reverse.dropWhile (· = [])).reverse
    let breaks := rows.length - content.length + (if closed then 1 else 0)
    let text := if folded then foldLines none 0 content else joinLines content
    let ending := match chomp with
      | .strip => 0
      | .clip => if content = [] then 0 else min 1 breaks
      | .keep => if content = [] then breaks - 1 else breaks
    let used := taken.foldl (fun n l => n + l.length + 1) 0
    some (text ++ List.replicate ending '\n', '\n' :: body.drop used)
  | _ => none

end FolioLedger.Yaml
