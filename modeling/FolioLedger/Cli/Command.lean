import FolioLedger.Cli.Arguments
import FolioLedger.Store.Expiry

/-!
# The commands

The grammar of the command line, and what a command line asks for.
-/

namespace FolioLedger.Cli

/-! ## Grammar -/

/-- The options that name a series. -/
def seriesOptions : List OptionSpec :=
  [{ name := "issuer", help := "Issuer tax id", required := true },
    { name := "doc-type", help := "Document type code", required := true }]

/-- The options that name a folio. -/
def folioOptions : List OptionSpec :=
  seriesOptions ++
    [{ name := "number", kind := some .number, help := "", required := true }]

/-- The options that every command understands. -/
def globalOptions : List OptionSpec :=
  [{ name := "config", kind := some .path, help := "YAML configuration file",
      variableName := some "FOLIO_CONFIG" },
    { name := "database", kind := some .path,
      help := "SQLite database (overrides config and FOLIO_DATABASE)" },
    .switch "json" "Print results as JSON",
    .switch "log-json" "Emit logs as JSON lines on stderr"]

def registerLevel : Level where
  name := "register"
  about := "Register a range from explicit bounds or a signed artifact"
  options := seriesOptions ++
    [{ name := "start", kind := some .number, help := "First folio number (inclusive)" },
      { name := "end", kind := some .number, help := "Last folio number (inclusive)" },
      { name := "authorized-at",
        help := "Authorization date (RFC 3339 or YYYY-MM-DD, default: now)" },
      { name := "expires-at",
        help := "Expiry date (default: authorization date plus the configured validity)" },
      { name := "artifact", kind := some .path, help := "Signed authorization artifact (JSON)" },
      { name := "trusted-key", kind := some .path, repeats := true,
        help := "Additional trusted public key (PEM), repeatable" }]
  conflicts := [("start", "artifact"), ("end", "artifact"), ("authorized-at", "artifact"),
    ("expires-at", "artifact")]
  neededUnless := [("start", "artifact"), ("end", "artifact")]

def listLevel : Level where
  name := "list"
  about := "List ranges"
  options := [{ name := "issuer", help := "" }, { name := "doc-type", help := "" },
    { name := "status", kind := some (.word ["active", "expired", "exhausted"]), help := "" }]

def statusLevel : Level where
  name := "status"
  about := "Validity and folio counts of one range"
  operand := some ⟨"range-id", "Range id"⟩

def rangeLevel : Level where
  name := "range"
  about := "Manage authorization ranges"
  verbs := [registerLevel, listLevel, statusLevel]

def assignLevel : Level where
  name := "assign"
  about := "Assign the next folio of a series"
  options := seriesOptions ++
    [{ name := "document-id", help := "Bind the folio to this document in the same step" }]

def bindLevel : Level where
  name := "bind"
  about := "Attach a document to a used folio"
  options := folioOptions ++ [{ name := "document-id", help := "", required := true }]

def voidLevel : Level where
  name := "void"
  about := "Void an unused folio"
  options := folioOptions ++ [{ name := "reason", help := "", required := true }]

def showLevel : Level where
  name := "show"
  about := "Show one folio"
  options := folioOptions

def sweepLevel : Level where
  name := "sweep"
  about := "Expire ranges and raise validity alerts"

def reportLevel : Level where
  name := "report"
  about := "Usage report for a period"
  options := seriesOptions ++
    [{ name := "from", help := "Period start (RFC 3339 or YYYY-MM-DD)", required := true },
      { name := "to", help := "Period end (RFC 3339 or YYYY-MM-DD, inclusive)",
        required := true },
      { name := "format", kind := some (.word ["text", "csv"]), default := some "text",
        help := "Output format; \x60csv\x60 lists the period's folios and ignores \x60--json\x60" }]

def replenishLevel : Level where
  name := "replenish"
  about := "Request a new range if the series is low, then poll it"
  options := seriesOptions ++
    [{ name := "threshold", kind := some .number,
        help := "Low-water mark (default: configured threshold)" },
      .switch "no-wait" "Submit and return without polling; \x60serve\x60 resumes the request"]

def requestsLevel : Level where
  name := "requests"
  about := "List replenishment requests of a series"
  options := seriesOptions

def serveLevel : Level where
  name := "serve"
  about := "Run the replenishment worker and validity watcher until Ctrl-C"

/-- The grammar of the program. -/
def grammar : Grammar where
  root := {
    name := "folio"
    about := "Folio allocation and authorization-range lifecycle"
    verbs := [rangeLevel, assignLevel, bindLevel, voidLevel, showLevel, sweepLevel, reportLevel,
      replenishLevel, requestsLevel, serveLevel] }
  globals := globalOptions
  version := "0.4.0"

/-! ## Meaning -/

/-- What a new range is read from. -/
inductive RangeSource where
  | bounds (first last : Nat) (authorizedAt expiresAt : Option String)
  | artifact (path : String) (trustedKeys : List String)

/-- The form of a report. -/
inductive ReportFormat where
  | text
  | csv
deriving DecidableEq

/-- What is to be done. -/
inductive Command where
  | register (series : Series) (source : RangeSource)
  | list (filter : RangeFilter)
  | status (rangeId : String)
  | assign (series : Series) (document : Option String)
  | bind (series : Series) (number : Nat) (document : String)
  | void (series : Series) (number : Nat) (reason : String)
  | folio (series : Series) (number : Nat)
  | sweep
  | report (series : Series) (start stop : String) (format : ReportFormat)
  | replenish (series : Series) (threshold : Option Nat) (wait : Bool)
  | requests (series : Series)
  | serve

/-- A command with the options that every command has. -/
structure Invocation where
  config : Option String
  database : Option String
  json : Bool
  command : Command

namespace Arguments

variable (a : Arguments)

/-- A text that the grammar asks for. -/
def text (name : String) : String := (a.value? name).getD ""

/-- A number that the grammar asks for. -/
def number (name : String) : Nat := (a.number? name).getD 0

/-- The series that is named. -/
def series : Series := ⟨a.text "issuer", a.text "doc-type"⟩

/-- What the new range is read from. -/
def rangeSource : RangeSource :=
  match a.value? "artifact" with
  | some path => .artifact path (a.values "trusted-key")
  | none =>
    .bounds (a.number "start") (a.number "end") (a.value? "authorized-at") (a.value? "expires-at")

/-- Which ranges are to be listed. -/
def rangeFilter : RangeFilter where
  issuer := a.value? "issuer"
  docType := a.value? "doc-type"
  status := (a.value? "status").bind fun word => RangeStatus.ofWord? word.toUpper

/-- What is to be done. -/
def command? : Option Command :=
  match a.verbs.drop 1 with
  | ["range", "register"] => some (.register a.series a.rangeSource)
  | ["range", "list"] => some (.list a.rangeFilter)
  | ["range", "status"] => some (.status (a.operand.getD ""))
  | ["assign"] => some (.assign a.series (a.value? "document-id"))
  | ["bind"] => some (.bind a.series (a.number "number") (a.text "document-id"))
  | ["void"] => some (.void a.series (a.number "number") (a.text "reason"))
  | ["show"] => some (.folio a.series (a.number "number"))
  | ["sweep"] => some .sweep
  | ["report"] => some (.report a.series (a.text "from") (a.text "to")
      (if a.value? "format" = some "csv" then .csv else .text))
  | ["replenish"] => some (.replenish a.series (a.number? "threshold") (!a.has "no-wait"))
  | ["requests"] => some (.requests a.series)
  | ["serve"] => some .serve
  | _ => none

end Arguments

/-- What a command line asks for. -/
def Invocation.read (environment : String → Option String) (args : List String) :
    Except Stop Invocation := do
  let a ← grammar.read environment args
  match a.command? with
  | some command =>
    return {
      config := (a.value? "config").orElse fun _ => environment "FOLIO_CONFIG"
      database := a.value? "database"
      json := a.has "json"
      command }
  | none => throw (.refused .usage)

end FolioLedger.Cli
