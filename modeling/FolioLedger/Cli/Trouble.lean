import FolioLedger.Failure
import FolioLedger.Text.Quoted

/-!
# What goes wrong in a command

A command fails because the ledger refuses it, or for a reason of its own.  What is said begins
with the outermost circumstance.
-/

namespace FolioLedger.Cli

/-- Why a command is not carried out. -/
inductive Trouble where
  | failure (failure : Failure)
  | loading (config : String) (failure : Failure)
  | opening (database : String) (failure : Failure)
  | unreadableArtifact (path cause : String)
  | noTrustedKeys
  | notADate (text : String)
  | expiryOutOfRange
  /-- A date left the calendar in the course of the work. -/
  | overflow

namespace Trouble

/-- What is said about it. -/
def message : Trouble → String
  | failure f => f.message
  | loading config f => "failed to load config " ++ config ++ ": " ++ f.message
  | opening database f => "failed to open folio database " ++ database ++ ": " ++ f.message
  | unreadableArtifact path cause => "failed to read artifact " ++ path ++ ": " ++ cause
  | noTrustedKeys => "no trusted keys configured (use --trusted-key or trusted_keys in config)"
  | notADate text =>
    "invalid date " ++ Quoted.render text ++ ": expected RFC 3339 or YYYY-MM-DD: no such date"
  | expiryOutOfRange => "expiry date out of range"
  | overflow => "date out of range"

/-- The exit status.  Troubles of the command itself are those of its usage. -/
def exitCode : Trouble → Nat
  | failure f | loading _ f | opening _ f => f.exitCode
  | overflow => 101
  | _ => 1

/-- What is printed about it. -/
def render (t : Trouble) : String :=
  "error: " ++ t.message ++ "\n"

end Trouble

end FolioLedger.Cli
