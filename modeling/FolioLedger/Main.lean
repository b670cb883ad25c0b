import FolioLedger.Cli.Run
import FolioLedger.Json.Reader
import FolioLedger.Store.File
import Std.Time.DateTime.Timestamp

/-!
# The program

The command line on the machine itself.  A store is a file that holds its document; each command
reads it and writes it anew.  There is no way to the network, so a peer never answers.
-/

namespace FolioLedger.Cli

/-- What the system says about a file that it cannot read. -/
def systemCause : IO.Error → String
  | .noFileOrDirectory .. => "No such file or directory (os error 2)"
  | .permissionDenied .. => "Permission denied (os error 13)"
  | e => e.toString

/-- The bytes of a file. -/
def fileBytes (path : String) : IO (Except String ByteArray) := do
  try
    return .ok (← IO.FS.readBinFile path)
  catch e => return .error (systemCause e)

/-- The store in a file; a file that is missing or empty holds an empty one. -/
def openStore (path : String) : IO (Except Failure Store) := do
  match ← fileBytes path with
  | .error _ =>
    try
      IO.FS.writeFile path ""
      return .ok {}
    catch _ =>
      return .error (.storage (.stated ("unable to open database file: " ++ path)))
  | .ok bytes =>
    if bytes.size = 0 then return .ok {}
    else
      match ((String.fromUTF8? bytes).bind fun text => Json.parse? text.toList).bind
          Store.ofJson? with
      | some s => return .ok s
      | none => return .error (.storage (.stated "file is not a database"))

/-- The time of the machine. -/
def machineNow : IO Instant := do
  let t ← Std.Time.Timestamp.now
  let nanos := t.toNanosecondsSinceUnixEpoch.val
  return (Instant.ofParts? (nanos.fdiv 1000000000) (nanos.fmod 1000000000).toNat).getD Instant.epoch

/-- A name that nobody else gives: sixteen random bytes in the usual groups. -/
def randomName : IO String := do
  let digits := (Hex.encode (← IO.getRandomBytes 16)).toList
  let group := fun (start count : Nat) => String.ofList ((digits.drop start).take count)
  return group 0 8 ++ "-" ++ group 8 4 ++ "-4" ++ group 13 3 ++ "-a" ++ group 17 3 ++ "-" ++
    group 20 12

/-- The machine itself. -/
def machine : Host IO where
  fileBytes := fileBytes
  openStore := openStore
  saveStore path s := IO.FS.writeFile path (s.toJson.compact ++ "\n")
  now := machineNow
  freshToken := randomName
  freshRangeId := randomName
  peer _ := return none
  pause ms := IO.sleep (UInt32.ofNat (min ms 4294967295))
  isInterrupted := return false
  print text := do
    let out ← IO.getStdout
    out.putStr text
    out.flush
  complain text := do (← IO.getStderr).putStr text

/-- The variables of the environment that have a meaning here. -/
def variableNames : List String :=
  ["FOLIO_CONFIG", "FOLIO_DATABASE", "FOLIO_LOW_WATER_THRESHOLD", "FOLIO_REQUEST_QUANTITY",
    "FOLIO_NEAR_EXPIRY_DAYS", "FOLIO_POLL_INTERVAL_SECS", "FOLIO_AUTHORITY_URL",
    "FOLIO_AUTHORITY_TOKEN", "FOLIO_AUTHORITY_TIMEOUT", "FOLIO_AUTHORITY_MAX_RETRIES"]

/-- Runs the program on the machine itself. -/
def runOnMachine (args : List String) : IO Nat := do
  let settings ← variableNames.filterMapM fun name => do
    return (← IO.getEnv name).map (name, ·)
  runProgram machine (fun name => settings.lookup name) args

end FolioLedger.Cli

def main (args : List String) : IO UInt32 := do
  return UInt32.ofNat (← FolioLedger.Cli.runOnMachine args)
