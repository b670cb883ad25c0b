import FolioLedger.Text.Numeral

/-!
# Grammars of command lines

What a command line may say, as data: options with or without values, one operand, and verbs that
go a level deeper.  Some options are understood on every level.
-/

namespace FolioLedger.Cli

/-- What the value of an option has to be. -/
inductive ValueKind where
  | text
  /-- A text that is not empty. -/
  | path
  /-- A number below `2 ^ 64`. -/
  | number
  /-- One of some words. -/
  | word (choices : List String)

/-- An option. -/
structure OptionSpec where
  /-- The name, without the hyphens before it. -/
  name : String
  /-- The value that follows; none for a switch. -/
  kind : Option ValueKind := some .text
  help : String
  required : Bool := false
  /-- Whether it may be given more than once. -/
  repeats : Bool := false
  /-- The variable of the environment that stands in for it. -/
  variableName : Option String := none
  /-- The value that is taken if none is given. -/
  default : Option String := none

namespace OptionSpec

/-- A switch. -/
def switch (name help : String) : OptionSpec :=
  { name, kind := none, help }

/-- The word that stands for the value in usage lines. -/
def placeholder (name : String) : String :=
  String.ofList (name.toList.map fun c => if c = '-' then '_' else c.toUpper)

/-- An option in messages. -/
def label (o : OptionSpec) : String :=
  match o.kind with
  | some _ => "--" ++ o.name ++ " <" ++ placeholder o.name ++ ">"
  | none => "--" ++ o.name

/-- The words that the value may be, if it is a word. -/
def choices (o : OptionSpec) : List String :=
  match o.kind with
  | some (.word choices) => choices
  | _ => []

end OptionSpec

/-- The operand of a command. -/
structure OperandSpec where
  name : String
  help : String

/-- A level of a grammar: the program itself, a group of commands or a command. -/
structure Level where
  name : String
  about : String
  options : List OptionSpec := []
  operand : Option OperandSpec := none
  /-- Options that exclude each other. -/
  conflicts : List (String × String) := []
  /-- Options that are needed unless another one is given. -/
  neededUnless : List (String × String) := []
  /-- The levels below; one of them has to be chosen if there are any. -/
  verbs : List Level := []

/-- A grammar. -/
structure Grammar where
  root : Level
  /-- The options that every level understands. -/
  globals : List OptionSpec
  version : String

/-- The options of a level, its own and those of every level. -/
def Grammar.optionsOf (g : Grammar) (l : Level) : List OptionSpec :=
  l.options ++ g.globals

end FolioLedger.Cli
