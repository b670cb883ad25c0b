import FolioLedger.Cli.Arguments
import FolioLedger.Text.Cell
import FolioLedger.Text.Similarity

/-!
# Help and refusals in words

What a grammar says about a level, and what is said about a command line that is refused.  Lines
are at most a hundred characters long, where words allow.
-/

namespace FolioLedger.Cli

/-- The length of a line. -/
def lineWidth : Nat := 100

/-! ## Layout -/

/-- Words on lines of some width, each but the first behind an indent. -/
def wrap (width indent : Nat) (text : String) : String :=
  let step := fun (state : String × Nat) (word : String) =>
    let (done, used) := state
    if used = 0 then (word, word.length)
    else if used + 1 + word.length ≤ width then (done ++ " " ++ word, used + 1 + word.length)
    else (done ++ "\n" ++ Cell.fill indent "" ++ word, word.length)
  ((text.splitOn " ").foldl step ("", 0)).1

/-- What is said about an option after its help. -/
def OptionSpec.notes (environment : String → Option String) (o : OptionSpec) : List String :=
  (o.variableName.toList.map fun v => "[env: " ++ v ++ "=" ++ (environment v).getD "" ++ "]") ++
    (o.default.toList.map fun d => "[default: " ++ d ++ "]") ++
    (if o.choices = [] then [] else
      ["[possible values: " ++ String.intercalate ", " o.choices ++ "]"])

/-- An option, what is put before it, and what it does. -/
structure Entry where
  front : String
  label : String
  help : String

/-- The entries of the options of a level in the order of their places, those of every level
among its own. -/
def entries (g : Grammar) (environment : String → Option String) (l : Level) : List Entry :=
  let placed := fun (os : List OptionSpec) => (List.range os.length).zip os
  let before := fun (a b : Nat × OptionSpec) => a.1 < b.1 || (a.1 = b.1 && a.2.name ≤ b.2.name)
  let own := ((placed l.options ++ placed g.globals).mergeSort before).map fun (_, o) =>
    (⟨"    ", o.label, String.intercalate " " (o.help :: o.notes environment)⟩ : Entry)
  let version := if l.name = g.root.name then [(⟨"-V, ", "--version", "Print version"⟩ : Entry)]
    else []
  own ++ [(⟨"-h, ", "--help", "Print help"⟩ : Entry)] ++ version

/-- The options of a level, one a line; on a line of its own each help when one is too long. -/
def optionLines (entries : List Entry) : String :=
  let longest := (entries.map (·.label.length)).foldl max 0
  let taken := longest + 12
  let below := entries.any fun e =>
    taken ≤ lineWidth && 2 * lineWidth < 5 * taken && lineWidth - taken < e.help.length
  String.join (entries.map fun e =>
    let head := "  " ++ e.front ++ e.label
    if below then head ++ "\n" ++ Cell.fill 10 "" ++ wrap (lineWidth - 10) 10 e.help ++ "\n"
    else
      let margin := longest + 8
      Cell.left margin head ++ wrap (lineWidth - margin) margin e.help ++ "\n")

/-- Names with what is said about them, one a line. -/
def table (rows : List (String × String)) : String :=
  let longest := (rows.map (·.1.length)).foldl max 0
  String.join (rows.map fun (name, help) => "  " ++ Cell.left (longest + 2) name ++ help ++ "\n")

/-! ## Help -/

/-- The line that shows how a level is called. -/
def usageLine (path : List String) (l : Level) : String :=
  let required := (l.options.filter (·.required)).map fun o => " " ++ o.label
  let operand := l.operand.toList.map fun o => " <" ++ OptionSpec.placeholder o.name ++ ">"
  "Usage: " ++ String.intercalate " " path ++ " [OPTIONS]" ++ String.join (required ++ operand) ++
    (if l.verbs.isEmpty then "" else " <COMMAND>") ++ "\n"

/-- The level that verbs lead to. -/
def Level.at? : Level → List String → Option Level
  | l, [] => some l
  | l, name :: names =>
    match l.verbs.find? (·.name = name) with
    | some v => at? v names
    | none => none

/-- The help on a level. -/
def helpText (g : Grammar) (environment : String → Option String) (path : List String) : String :=
  match g.root.at? (path.drop 1) with
  | none => ""
  | some l =>
    let verbs := (l.verbs.map fun v => (v.name, v.about)) ++
      [("help", "Print this message or the help of the given subcommand(s)")]
    l.about ++ "\n\n" ++ usageLine path l ++ "\n" ++
      (if l.verbs.isEmpty then "" else "Commands:\n" ++ table verbs ++ "\n") ++
      (l.operand.elim "" fun o =>
        "Arguments:\n" ++ table [("<" ++ OptionSpec.placeholder o.name ++ ">", o.help)] ++ "\n") ++
      "Options:\n" ++ optionLines (entries g environment l)

/-! ## Refusals -/

/-- The words that an option's value may be, on a line of their own. -/
def OptionSpec.choicesNote (o : OptionSpec) : String :=
  if o.choices = [] then "" else
    "\n  [possible values: " ++ String.intercalate ", " o.choices ++ "]"

/-- What is wrong, in words. -/
def Refusal.message : Refusal → String
  | .usage => "the arguments do not form a command"
  | .missingValue o => "a value is required for '" ++ o.label ++ "' but none was supplied" ++
    o.choicesNote
  | .badNumber o value cause => "invalid value '" ++ value ++ "' for '" ++ o.label ++ "': " ++ cause
  | .badWord o value => "invalid value '" ++ value ++ "' for '" ++ o.label ++ "'" ++
    o.choicesNote ++
    ((Similarity.closest? value o.choices).elim "" fun choice =>
      "\n\n  tip: a similar value exists: '" ++ choice ++ "'")
/-- What is printed about a refusal. -/
def Refusal.render (r : Refusal) : String :=
  "error: " ++ r.message ++ "\n\nFor more information, try '--help'.\n"

end FolioLedger.Cli
