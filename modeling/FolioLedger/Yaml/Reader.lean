import FolioLedger.Yaml.Scalar

/-!
# Reading YAML

A reader of YAML documents by recursive descent: block collections by their indent, flow
collections by their marks, scalars in every style, names for nodes and references to them.  Tags
are passed over, and keys are written on one line.  A text holds one document.

`indent` is the column of the collection around, so that what belongs to it stands further right;
`fuel` bounds the recursion and is taken from the length of the text.
-/

namespace FolioLedger.Yaml

/-! ## Between tokens -/

/-- Skips blanks, comments and breaks.  At the start of a line, and where a key may follow, a tab
is no blank. -/
def skipBlank (fresh comment : Bool) : List Char → Option (List Char)
  | [] => some []
  | c :: cs =>
    if c = '\n' then skipBlank true false cs
    else if comment then skipBlank fresh true cs
    else if c = ' ' then skipBlank fresh false cs
    else if c = '\t' then if fresh then none else skipBlank false false cs
    else if c = '#' then skipBlank fresh true cs
    else some (c :: cs)

/-- The next place with content. -/
def nextContent (fresh : Bool) (p : Place) : Option Place :=
  (skipBlank fresh false p.rest).map p.moveTo

/-- The next place with content inside a flow collection, where tabs are blanks. -/
def nextFlow (p : Place) : Place :=
  p.moveTo (skip false p.rest)
where
  /-- The text after blanks, comments and breaks. -/
  skip (comment : Bool) : List Char → List Char
    | [] => []
    | c :: cs =>
      if c = '\n' then skip false cs
      else if comment then skip true cs
      else if isGap c then skip false cs
      else if c = '#' then skip true cs
      else c :: cs

/-- Skips blanks on the line. -/
def skipGaps (p : Place) : Place :=
  p.moveTo (p.rest.dropWhile isGap)

/-- Whether an item of a block sequence starts here. -/
def atDash (p : Place) : Bool :=
  match p.rest with
  | '-' :: cs => endsWord cs
  | _ => false

/-- Whether a block collection has no more members here. -/
def closesBlock (p : Place) : Bool := p.isEnd || atMarker p

/-! ## Scalars on one line and references -/

/-- A scalar in quotes after its opening one. -/
def readQuoted (p : Place) (quote : Char) : Option (Yaml × Place) := do
  let fuel := p.rest.length + 1
  let (text, rest) ← if quote = '"' then readDouble fuel [] p.rest else readSingle fuel [] p.rest
  some (.scalar false (String.ofList text), p.moveTo rest)

/-- The name after the sign of an anchor, a reference or a tag. -/
def readName (p : Place) : String × Place :=
  let run := p.rest.takeWhile fun c => !(isGap c || c = '\n' || isFlowMark c)
  (String.ofList run, p.advance run.length)

/-- The node that a name was given to. -/
def readReference (p : Place) : Option (Yaml × Place) := do
  let (name, p) := readName p
  let (_, node) ← p.anchors.find? (·.1 = name)
  some (node, p)

/-- A key and the colon after it, on one line; gives the place after the colon. -/
def readKey (p : Place) : Option (Yaml × Place) := do
  let (key, stop) ← match p.rest with
    | '"' :: _ => readQuoted (p.advance 1) '"'
    | '\'' :: _ => readQuoted (p.advance 1) '\''
    | '*' :: _ => readReference (p.advance 1)
    | cs =>
      if startsPlain cs then
        let text := dropGapsRight (splitPlain false false cs).1
        some (.scalar true (String.ofList text), p.advance text.length)
      else none
  let stop := skipGaps stop
  match stop.rest with
  | ':' :: cs => if stop.line = p.line ∧ endsWord cs then some (key, stop.advance 1) else none
  | _ => none

/-! ## Flow collections -/

mutual

/-- A node of a flow collection. -/
def readFlowNode : Nat → Place → Option (Yaml × Place)
  | 0, _ => none
  | fuel + 1, p =>
    match p.rest with
    | '[' :: _ => readFlowItems fuel (p.advance 1)
    | '{' :: _ => readFlowMembers fuel (p.advance 1)
    | '"' :: _ => readQuoted (p.advance 1) '"'
    | '\'' :: _ => readQuoted (p.advance 1) '\''
    | '*' :: _ => readReference (p.advance 1)
    | '&' :: _ => do
      let (name, p) := readName (p.advance 1)
      let (node, p) ← readFlowNode fuel (nextFlow p)
      some (node, { p with anchors := (name, node) :: p.anchors })
    | '!' :: _ => readFlowNode fuel (nextFlow (readName (p.advance 1)).2)
    | cs =>
      if startsPlain cs then
        let (text, p) := readPlain true (-1) (cs.length + 1) p
        some (.scalar true (String.ofList text), p)
      else none

/-- The value after a colon in a flow collection; nothing may be written. -/
def readFlowValue : Nat → Place → Option (Yaml × Place)
  | 0, _ => none
  | fuel + 1, p =>
    let q := nextFlow p
    match q.rest with
    | ',' :: _ => some (absent, q)
    | ']' :: _ => some (absent, q)
    | '}' :: _ => some (absent, q)
    | _ => readFlowNode fuel q

/-- The items of a flow sequence up to its bracket.  An item with a colon is a mapping of one
member. -/
def readFlowItems : Nat → Place → Option (Yaml × Place)
  | 0, _ => none
  | fuel + 1, p => do
    let p := nextFlow p
    match p.rest with
    | ']' :: _ => some (.sequence [], p.advance 1)
    | _ =>
      let (item, p) ← readFlowNode fuel p
      let p := nextFlow p
      let (item, p) ← match p.rest with
        | ':' :: _ => (readFlowValue fuel (p.advance 1)).map fun (v, q) =>
            (Yaml.mapping [(item, v)], nextFlow q)
        | _ => some (item, p)
      match p.rest with
      | ']' :: _ => some (.sequence [item], p.advance 1)
      | ',' :: _ =>
        match ← readFlowItems fuel (p.advance 1) with
        | (.sequence items, p) => some (.sequence (item :: items), p)
        | _ => none
      | _ => none

/-- The members of a flow mapping up to its brace. -/
def readFlowMembers : Nat → Place → Option (Yaml × Place)
  | 0, _ => none
  | fuel + 1, p => do
    let p := nextFlow p
    match p.rest with
    | '}' :: _ => some (.mapping [], p.advance 1)
    | _ =>
      let (key, p) ← readFlowNode fuel p
      let p := nextFlow p
      let (value, p) ← match p.rest with
        | ':' :: _ => (readFlowValue fuel (p.advance 1)).map fun (v, q) => (v, nextFlow q)
        | _ => some (absent, p)
      match p.rest with
      | '}' :: _ => some (.mapping [(key, value)], p.advance 1)
      | ',' :: _ =>
        match ← readFlowMembers fuel (p.advance 1) with
        | (.mapping members, p) => some (.mapping ((key, value) :: members), p)
        | _ => none
      | _ => none

end

/-! ## Block collections -/

mutual

/-- A node that starts on the line of what it belongs to: no block collection. -/
def readInline : Nat → Int → Place → Option (Yaml × Place)
  | 0, _, _ => none
  | fuel + 1, indent, p =>
    match p.rest with
    | '|' :: cs => (readBlock false indent cs).map fun (text, rest) =>
        (.scalar false (String.ofList text), p.moveTo rest)
    | '>' :: cs => (readBlock true indent cs).map fun (text, rest) =>
        (.scalar false (String.ofList text), p.moveTo rest)
    | '&' :: _ => do
      let (name, p) := readName (p.advance 1)
      let (node, p) ← readAfter fuel indent p
      some (node, { p with anchors := (name, node) :: p.anchors })
    | '!' :: _ => readAfter fuel indent (readName (p.advance 1)).2
    | '[' :: _ => readFlowNode fuel p
    | '{' :: _ => readFlowNode fuel p
    | '"' :: _ => readQuoted (p.advance 1) '"'
    | '\'' :: _ => readQuoted (p.advance 1) '\''
    | '*' :: _ => readReference (p.advance 1)
    | cs =>
      if startsPlain cs then
        let (text, p) := readPlain false indent (cs.length + 1) p
        some (.scalar true (String.ofList text), p)
      else none

/-- The node after a colon, a name or a tag: on the line, or further right on a later one. -/
def readAfter : Nat → Int → Place → Option (Yaml × Place)
  | 0, _, _ => none
  | fuel + 1, indent, p => do
    let q ← nextContent false p
    if closesBlock q then some (absent, p)
    else if q.line = p.line then readInline fuel indent q
    else if indent < q.column then readNode fuel indent q
    else if indent = q.column ∧ atDash q then readItems fuel q.column q
    else some (absent, p)

/-- A node in a place of its own. -/
def readNode : Nat → Int → Place → Option (Yaml × Place)
  | 0, _, _ => none
  | fuel + 1, indent, p =>
    if atDash p then readItems fuel p.column p
    else if (readKey p).isSome then readMembers fuel p.column p
    else readInline fuel indent p

/-- The items of a block sequence in a column. -/
def readItems : Nat → Nat → Place → Option (Yaml × Place)
  | 0, _, _ => none
  | fuel + 1, column, p => do
    let dash := p.advance 1
    let q ← nextContent true dash
    let (item, p) ←
      if closesBlock q then some (absent, dash)
      else if q.line = dash.line ∨ column < q.column then readNode fuel column q
      else some (absent, dash)
    let q ← nextContent false p
    if closesBlock q then some (.sequence [item], p)
    else if q.line = p.line ∨ column < q.column then none
    else if q.column = column ∧ atDash q then
      match ← readItems fuel column q with
      | (.sequence items, p) => some (.sequence (item :: items), p)
      | _ => none
    else some (.sequence [item], p)

/-- The members of a block mapping in a column. -/
def readMembers : Nat → Nat → Place → Option (Yaml × Place)
  | 0, _, _ => none
  | fuel + 1, column, p => do
    let (key, p) ← readKey p
    let (value, p) ← readAfter fuel column p
    let q ← nextContent false p
    if closesBlock q then some (.mapping [(key, value)], p)
    else if q.line = p.line ∨ column < q.column then none
    else if q.column = column then
      match ← readMembers fuel column q with
      | (.mapping members, p) => some (.mapping ((key, value) :: members), p)
      | _ => none
    else some (.mapping [(key, value)], p)

end

/-! ## Documents -/

/-- Every break written as a line feed. -/
def normalizeBreaks : List Char → List Char
  | [] => []
  | '\r' :: '\n' :: cs => '\n' :: normalizeBreaks cs
  | c :: cs =>
    (if c = '\r' ∨ c = '\u0085' ∨ c = '\u2028' ∨ c = '\u2029' then '\n' else c) ::
      normalizeBreaks cs

/-- Whether a document may hold the character. -/
def isPrintable (c : Char) : Bool :=
  let n := c.toNat
  n == 0x09 || n == 0x0A || n == 0x0D || (0x20 ≤ n && n ≤ 0x7E) || n == 0x85 ||
    (0xA0 ≤ n && n ≤ 0xD7FF) || (0xE000 ≤ n && n ≤ 0xFFFD && n != 0xFEFF) || 0x10000 ≤ n

/-- Skips the lines of directives. -/
def skipDirectives : Nat → Place → Option Place
  | 0, _ => none
  | fuel + 1, p => do
    let p ← nextContent true p
    match p.rest with
    | '%' :: _ =>
      if p.column = 0 then skipDirectives fuel (p.moveTo (p.rest.dropWhile (· ≠ '\n'))) else none
    | _ => some p

/-- The node of a document and the place after it. -/
def readDocument (fuel : Nat) (p : Place) : Option (Yaml × Place) := do
  let start ← skipDirectives fuel p
  if atMarker start ∧ start.rest.head? = some '-' then
    readAfter fuel (-1) (start.advance 3)
  else if closesBlock start then some (absent, start)
  else readNode fuel (-1) start

/-- Whether nothing but the end of a document follows. -/
def endsDocument (p : Place) : Bool :=
  match nextContent false p with
  | none => false
  | some q =>
    if q.isEnd then true
    else if atMarker q ∧ q.rest.head? = some '.' ∧ (q.line ≠ p.line ∨ p.column = 0) then
      match nextContent false (q.advance 3) with
      | some r => r.isEnd
      | none => false
    else false

/-- The node of a text that holds one document. -/
def parse? (text : String) : Option Yaml := do
  let cs := match text.toList with
    | '\ufeff' :: cs => cs
    | cs => cs
  if ¬ cs.all isPrintable then none
  let p : Place := { rest := normalizeBreaks cs }
  let (node, p) ← readDocument (4 * cs.length + 16) p
  if endsDocument p then some node else none

end FolioLedger.Yaml
