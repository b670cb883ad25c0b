import FolioLedger.Cli.Grammar

/-!
# Reading command lines

Arguments are read from left to right against a grammar.  An option's value may follow after an
equals sign or as the next argument; in the latter case it is looked at only when the next option
comes or the level ends, and a fault that is found before takes precedence.  A level ends when the
levels below it have ended.
-/

namespace FolioLedger.Cli

/-- What is wrong with a command line. -/
inductive Refusal where
  /-- It does not follow the grammar. -/
  | usage
  | missingValue (option : OptionSpec)
  | badNumber (option : OptionSpec) (value cause : String)
  | badWord (option : OptionSpec) (value : String)

/-- Why a command line is not carried out. -/
inductive Stop where
  | refused (refusal : Refusal)
  /-- Help is asked for on the level that the verbs lead to. -/
  | help (verbs : List String)
  | version

/-- What a command line says. -/
structure Arguments where
  /-- The verbs that were chosen. -/
  verbs : List String
  /-- The options that were given, those of the deepest level first. -/
  options : List (String × String)
  operand : Option String

/-! ## Values -/

/-- Why digits are no number below `2 ^ 64`, after digits that denote `n`. -/
def digitsFault? (n : Nat) : List Char → Option String
  | [] => none
  | c :: cs =>
    match Numeral.digit? c with
    | none => some "invalid digit found in string"
    | some d =>
      if 1 <<< 64 ≤ 10 * n + d then some "number too large to fit in target type"
      else digitsFault? (10 * n + d) cs

/-- Why a text is no number below `2 ^ 64`. -/
def numberFault? : List Char → Option String
  | [] => some "cannot parse integer from empty string"
  | ['+'] => some "invalid digit found in string"
  | '+' :: cs => digitsFault? 0 cs
  | cs => digitsFault? 0 cs

/-- Refuses a value that an option cannot have. -/
def OptionSpec.check (o : OptionSpec) (value : String) : Except Stop Unit :=
  match o.kind with
  | none | some .text => .ok ()
  | some .path => if value = "" then .error (.refused (.missingValue o)) else .ok ()
  | some .number =>
    match numberFault? value.toList with
    | some cause => .error (.refused (.badNumber o value cause))
    | none => .ok ()
  | some (.word choices) =>
    if value ∈ choices then .ok ()
    else if value = "" then .error (.refused (.missingValue o))
    else .error (.refused (.badWord o value))

/-! ## One level -/

/-- How far a level is read. -/
structure Scan where
  /-- The options that were taken, the last one first. -/
  taken : List (String × String) := []
  /-- An option that is not taken yet; without a value if it waits for one. -/
  pending : Option (OptionSpec × Option String) := none
  operand : Option String := none
  /-- Whether all that follows is operands. -/
  onlyOperands : Bool := false

namespace Scan

/-- Whether the next argument may be the value of an option. -/
def isWaiting (s : Scan) : Bool :=
  s.pending.any (·.2.isNone)

/-- Takes an option. -/
def take (s : Scan) (o : OptionSpec) (value : Option String) : Except Stop Scan := do
  if o.kind.isSome && value.isNone then throw (.refused (.missingValue o))
  if !o.repeats && s.taken.any (·.1 = o.name) then throw (.refused .usage)
  o.check (value.getD "")
  return { s with taken := (o.name, value.getD "") :: s.taken }

/-- Takes the option that is pending. -/
def settle (s : Scan) : Except Stop Scan :=
  match s.pending with
  | some (o, value) => take { s with pending := none } o value
  | none => .ok s

end Scan

variable (g : Grammar) (environment : String → Option String)

/-- Checks the variables that stand in for options that were not given. -/
def checkVariables (taken : List (String × String)) : List OptionSpec → Except Stop Unit
  | [] => .ok ()
  | o :: os => do
    match o.variableName.bind environment with
    | some value => if taken.all (·.1 ≠ o.name) then o.check value
    | none => pure ()
    checkVariables taken os

/-- Whether the options of a level go together and all that is needed is there. -/
def Level.admits (l : Level) (s : Scan) : Bool :=
  let given := fun name => s.taken.any (·.1 = name)
  l.conflicts.all (fun (a, b) => !(given a && given b)) &&
    l.options.all (fun o => !o.required || given o.name) &&
    l.neededUnless.all (fun (name, other) => given name || given other) &&
    (l.operand.isNone || s.operand.isSome)

/-- Ends a level. -/
def Level.finish (l : Level) (s : Scan) (inner : Option Arguments) : Except Stop Arguments := do
  let s ← s.settle
  checkVariables environment s.taken (g.optionsOf l)
  if !l.verbs.isEmpty && inner.isNone || !l.admits s then throw (.refused .usage)
  match inner with
  | some a => return { a with verbs := l.name :: a.verbs, options := a.options ++ s.taken }
  | none => return ⟨[l.name], s.taken, s.operand⟩

/-- Goes on with an option, given its name and the value after its equals sign.  `path` leads to
the level. -/
def Level.readOption (l : Level) (path : List String) (s : Scan) (name : String)
    (value : Option String) : Except Stop Scan := do
  match (g.optionsOf l).find? (·.name = name) with
  | some o =>
    if o.kind.isSome && value.isNone then
      return { ← s.settle with pending := some (o, none) }
    else if o.kind.isNone && value.isSome then throw (.refused .usage)
    else (← s.settle).take o value
  | none =>
    if value.isSome then throw (.refused .usage)
    else if name = "help" then
      let _ ← s.settle
      throw (.help path)
    else if name = "version" ∧ path.length = 1 then
      let _ ← s.settle
      throw .version
    else throw (.refused .usage)

/-- Goes on with options of one letter. -/
def readLetters (path : List String) (s : Scan) : List Char → Except Stop Scan
  | 'h' :: _ => do
    let _ ← s.settle
    throw (.help path)
  | 'V' :: _ => do
    if path.length ≠ 1 then throw (.refused .usage)
    let _ ← s.settle
    throw .version
  | _ => throw (.refused .usage)

/-- Parts an option at its first equals sign. -/
def splitEquals (cs : List Char) : String × Option String :=
  match cs.span (· ≠ '=') with
  | (name, _ :: value) => (String.ofList name, some (String.ofList value))
  | (name, []) => (String.ofList name, none)

/-- Takes an operand. -/
def Level.readOperand (l : Level) (s : Scan) (a : String) : Except Stop Scan :=
  if l.operand.isSome ∧ s.operand.isNone then s.settle.map ({ · with operand := some a })
  else .error (.refused .usage)

/-- The level that verbs lead to from a level. -/
def Level.descend? : Level → List String → Option (List String)
  | _, [] => some []
  | l, name :: names =>
    match l.verbs.find? (·.name = name) with
    | some v => (descend? v names).map (name :: ·)
    | none => none

/-- Goes on with one argument that is no verb. -/
def Level.readArgument (l : Level) (path : List String) (s : Scan) (a : String) :
    Except Stop Scan :=
  if s.onlyOperands then l.readOperand s a
  else
    match a.toList with
    | ['-', '-'] => .ok { s with onlyOperands := true }
    | '-' :: '-' :: cs =>
      let (name, value) := splitEquals cs
      l.readOption g path s name value
    | '-' :: c :: cs => readLetters path s (c :: cs)
    | _ =>
      match s.pending with
      | some (o, none) => .ok { s with pending := some (o, some a) }
      | _ => l.readOperand s a

/-- Reads the arguments of a level and of those below it. -/
def Level.read : List String → Level → List String → Scan → Except Stop Arguments
  | [], l, _, s => l.finish g environment s none
  | a :: rest, l, path, s => do
    let mayBeVerb := !s.onlyOperands && !s.isWaiting
    match if mayBeVerb then l.verbs.find? (·.name = a) else none with
    | some verb =>
      let inner ← read rest verb (path ++ [verb.name]) {}
      l.finish g environment s (some inner)
    | none =>
      if mayBeVerb && !l.verbs.isEmpty && a = "help" then
        match l.descend? rest with
        | some verbs => throw (.help (path ++ verbs))
        | none => throw (.refused .usage)
      let s ← l.readArgument g path s a
      read rest l path s

/-- What a command line says under a grammar. -/
def Grammar.read (args : List String) : Except Stop Arguments :=
  g.root.read g environment args [g.root.name] {}

namespace Arguments

variable (a : Arguments)

/-- The value of an option: the one that was given on the deepest level, the last one there. -/
def value? (name : String) : Option String :=
  (a.options.find? (·.1 = name)).map (·.2)

/-- All values of an option in their order. -/
def values (name : String) : List String :=
  ((a.options.filter (·.1 = name)).map (·.2)).reverse

/-- Whether a switch was given. -/
def has (name : String) : Bool :=
  a.options.any (·.1 = name)

/-- The value of an option that is a number. -/
def number? (name : String) : Option Nat :=
  (a.value? name).bind (Numeral.parseNat? (1 <<< 64))

end Arguments

end FolioLedger.Cli
