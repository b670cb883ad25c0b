import FolioLedger.Authority.Client
import FolioLedger.Cli.Command
import FolioLedger.Cli.Help
import FolioLedger.Cli.Moment
import FolioLedger.Cli.Trouble
import FolioLedger.Cli.Wording
import FolioLedger.Config.Document
import FolioLedger.Crypto.KeyFile
import FolioLedger.Engine

/-!
# Carrying out commands

Each command opens the store, does one thing to it, puts it back and tells the result.  The machine
that the program runs on is a record of what is asked of it, so that it may be a value in memory as
well as the real one.  `runProgram` is the whole program.
-/

namespace FolioLedger.Cli

/-- What a program asks of the machine that it runs on. -/
structure Host (m : Type → Type) where
  /-- The bytes of a file, or why it cannot be read. -/
  fileBytes : String → m (Except String ByteArray)
  openStore : String → m (Except Failure Store)
  saveStore : String → Store → m Unit
  now : m Instant
  freshToken : m String
  freshRangeId : m String
  peer : Http.Peer m
  /-- Waits for some milliseconds. -/
  pause : Nat → m Unit
  /-- Whether the program is asked to stop. -/
  isInterrupted : m Bool
  print : String → m Unit
  complain : String → m Unit

variable {m : Type → Type} [Monad m] (host : Host m)

/-- Work that may run into trouble. -/
abbrev Work (m : Type → Type) := ExceptT Trouble m

/-- Fails with what the ledger says, in some circumstance. -/
def orTrouble {α : Type} (circumstance : Failure → Trouble) (x : Except Failure α) : Work m α :=
  match x with
  | .ok a => pure a
  | .error f => throw (circumstance f)

/-! ## Before a command -/

/-- The text of a file. -/
def readText (path : String) : Work m (Except String String) := do
  match ← host.fileBytes path with
  | .error cause => return .error cause
  | .ok bytes =>
    match String.fromUTF8? bytes with
    | some text => return .ok text
    | none => return .error "stream did not contain valid UTF-8"

/-- The settings: of the file that is named, else the defaults; then of the environment, then of
the command line. -/
def loadConfig (environment : String → Option String) (i : Invocation) : Work m EngineConfig := do
  let base ← match i.config with
    | none => pure {}
    | some path =>
      match ← readText host path with
      | .error cause =>
        throw (.loading path (.invalidConfig (.unreadableFile path cause)))
      | .ok text => orTrouble (.loading path) (EngineConfig.ofText text)
  let c := base.override environment
  let c := { c with databasePath := i.database.getD c.databasePath }
  orTrouble .failure c.check
  return c

/-- The verifier that trusts the keys of some files. -/
def loadVerifier (paths : List String) (validityMonths : Nat) : Work m Verifier := do
  let keys ← paths.mapM fun path => do
    match ← readText host path with
    | .error _ => throw (.failure (.invalidConfig (.unreadableKey path)))
    | .ok text =>
      match KeyFile.read? text with
      | some key => pure key
      | none => throw (.failure (.invalidConfig (.malformedKey path)))
  return ⟨keys, validityMonths⟩

/-- The engine with the settings, and its store. -/
def openEngine (c : EngineConfig) : Work m (Engine × Store) := do
  let verifier ← loadVerifier host c.trustedKeys c.validityMonths
  let store ← orTrouble (.opening c.databasePath) (← host.openStore c.databasePath)
  return (Engine.ofConfig c verifier none, store)

/-- The world of an engine. -/
def worldOf (c : EngineConfig) : World m where
  authority := Authority.overHttp c.authority host.peer
  now := host.now
  freshToken := host.freshToken
  freshRangeId := host.freshRangeId
  isCancelled := host.isInterrupted
  pause := host.pause

/-- Tells a result, as a document or in words. -/
def emit (json : Bool) (document : Json) (words : String) : Work m Unit :=
  host.print (if json then document.pretty ++ "\n" else words)

/-- The moment that a text stands for. -/
def momentOf (edge : Edge) (text : String) : Work m Instant :=
  match readMoment? edge text with
  | some t => pure t
  | none => throw (.notADate text)

/-! ## Commands -/

/-- The range that is to be registered. -/
def newRange (c : EngineConfig) (series : Series) : RangeSource → Work m NewRange
  | .bounds first last authorizedAt expiresAt => do
    let authorizedAt ← match authorizedAt with
      | some text => momentOf .start text
      | none => host.now
    let expiresAt ← match expiresAt with
      | some text => momentOf .start text
      | none =>
        match authorizedAt.addMonths? c.validityMonths with
        | some t => pure t
        | none => throw .expiryOutOfRange
    return { series, first, last, authorizedAt, expiresAt }
  | .artifact path trustedKeys => do
    let raw ← match ← host.fileBytes path with
      | .ok raw => pure raw
      | .error cause => throw (.unreadableArtifact path cause)
    let verifier ← loadVerifier host (c.trustedKeys ++ trustedKeys) c.validityMonths
    if verifier.keyIds.isEmpty then throw .noTrustedKeys
    let a ← orTrouble .failure (verifier.verify raw series (← host.now))
    return {
      series := a.series
      first := a.first
      last := a.last
      authorizedAt := a.authorizedAt
      expiresAt := a.expiresAt
      artifactHash := some a.hash }

/-- Calls for a new range and waits for it, if that is asked for. -/
def replenish (c : EngineConfig) (e : Engine) (s : Store) (series : Series) (threshold : Nat)
    (wait : Bool) : Work m Replenishment := do
  let (outcome, s) ← (e.workshop.trigger (worldOf host c) s series threshold : m _)
  host.saveStore c.databasePath s
  match ← orTrouble .failure outcome with
  | .alreadyInFlight => return .alreadyInFlight
  | .aboveThreshold remaining => return .aboveThreshold remaining
  | .submitted request lease | .pendingExists request lease =>
    if !wait then
      host.saveStore c.databasePath (s.release lease)
      return .pending request
    host.complain (pollingText request c.pollIntervalSecs)
    match Poll.start? c.monitor request lease with
    | none => throw .overflow
    | some p =>
      let (outcome, s, _) ←
        (e.workshop.poll (worldOf host c) e.pollInterval Engine.maxMoments p s : m _)
      host.saveStore c.databasePath s
      return .ended request (← orTrouble .failure outcome)

/-- Lets the engine work in slices of a poll's interval until the program is asked to stop; at most
`slices` of them. -/
def serveOn (c : EngineConfig) (e : Engine) : Nat → Engine.State → m Engine.State
  | 0, st => return st
  | slices + 1, st => do
    let (st, _) ← e.pass (worldOf host c) st 1
    host.saveStore c.databasePath st.store
    if ← host.isInterrupted then return st
    host.pause e.pollInterval
    let (st, _) ← e.pass (worldOf host c) st (e.pollInterval - 1)
    serveOn c e slices st

/-- Carries out a command under its settings. -/
def perform (c : EngineConfig) (json : Bool) : Command → Work m Unit
  | .register series source => do
    let new ← newRange host c series source
    let (_, s) ← openEngine host c
    let (range, s) ← orTrouble .failure
      (s.register c.maxRangeSize none (← host.freshRangeId) (← host.now) new)
    host.saveStore c.databasePath s
    emit host json range.toJson (registeredText range)
  | .list filter => do
    let (_, s) ← openEngine host c
    let ranges ← orTrouble .failure (s.listRanges filter)
    emit host json (.array (ranges.map RangeRecord.toJson)) (rangesText ranges)
  | .status rangeId => do
    let (_, s) ← openEngine host c
    let report ← orTrouble .failure (s.rangeReport (← host.now) c.nearExpiryDays rangeId)
    emit host json report.toJson (rangeReportText report)
  | .assign series document => do
    let (e, s) ← openEngine host c
    let (result, s, _) := e.desk.assign s (← host.now) series document
    let a ← orTrouble .failure result
    host.saveStore c.databasePath s
    emit host json a.toJson (assignmentText a)
    if !json && a.remaining ≤ c.lowWaterThreshold then
      host.complain (lowStockText series a.remaining)
  | .bind series number document => do
    let (_, s) ← openEngine host c
    let (folio, s) ← orTrouble .failure (s.bind series number document)
    host.saveStore c.databasePath s
    emit host json folio.toJson (folioDetails folio)
  | .void series number reason => do
    let (e, s) ← openEngine host c
    let (result, s, _) := e.desk.void s (← host.now) series number reason
    let folio ← orTrouble .failure result
    host.saveStore c.databasePath s
    emit host json folio.toJson (folioDetails folio)
  | .folio series number => do
    let (_, s) ← openEngine host c
    let folio ← orTrouble .failure (s.getFolio series number)
    emit host json folio.toJson (folioDetails folio)
  | .sweep => do
    let (e, s) ← openEngine host c
    let (result, s, _) := e.watch.sweep s (← host.now)
    host.saveStore c.databasePath s
    match result with
    | .ok report => emit host json report.toJson (sweepText report)
    | .error (.failed f) => throw (.failure f)
    | .error .overflow => throw .overflow
  | .report series start stop format => do
    let start ← momentOf .start start
    let stop ← momentOf .stop stop
    let (_, s) ← openEngine host c
    let report ← orTrouble .failure (s.usageReport series start stop)
    match format with
    | .csv => host.print (usageCsv report)
    | .text => emit host json report.toJson (usageText report)
  | .replenish series threshold wait => do
    let (e, s) ← openEngine host c
    let threshold := threshold.getD c.lowWaterThreshold
    let outcome ← replenish host c e s series threshold wait
    emit host json outcome.toJson (outcome.text series threshold)
  | .requests series => do
    let (_, s) ← openEngine host c
    let requests ← orTrouble .failure (s.requestsOf series)
    emit host json (.array (requests.map ReplenishmentRequest.toJson)) (requestsText requests)
  | .serve => do
    let (e, s) ← openEngine host c
    let st ← orTrouble .failure (Engine.start ⟨s, {}⟩)
    let st ← (serveOn host c e Engine.maxMoments st : m _)
    host.saveStore c.databasePath (Engine.stop st).store

/-- Carries out what a command line asks for; gives the exit status. -/
def execute (environment : String → Option String) (i : Invocation) : m Nat := do
  let work : Work m Unit := do
    let c ← loadConfig host environment i
    perform host c i.json i.command
  match ← work.run with
  | .ok () => return 0
  | .error trouble =>
    host.complain trouble.render
    return trouble.exitCode

/-- The program: reads the command line and carries out what it asks for. -/
def runProgram (environment : String → Option String) (args : List String) : m Nat := do
  match Invocation.read environment args with
  | .ok i => execute host environment i
  | .error .version =>
    host.print (grammar.root.name ++ " " ++ grammar.version ++ "\n")
    return 0
  | .error (.help path) =>
    host.print (helpText grammar environment path)
    return 0
  | .error (.refused refusal) =>
    host.complain refusal.render
    return 2

end FolioLedger.Cli
