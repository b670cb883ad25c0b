import FolioLedger.Document.Alert
import FolioLedger.Store.Assign
import FolioLedger.Store.Fate

/-!
# The desk

Handing out and voiding folios, together with what has to be told about it: an alert when a series
has no folio left, and a trigger for a new range when its stock is low.  The stock is looked at
before a folio is handed out, so the trigger goes out even if none can be.
-/

namespace FolioLedger

/-- Says that the stock of a series may have fallen to a threshold. -/
structure Trigger where
  series : Series
  threshold : Nat
deriving DecidableEq

/-- What an operation has to tell: alerts to operators, triggers to the replenishment. -/
structure Outbox where
  alerts : List Alert := []
  triggers : List Trigger := []
deriving DecidableEq

namespace Outbox

/-- Nothing to tell. -/
def empty : Outbox := {}

/-- One message after another. -/
def append (a b : Outbox) : Outbox :=
  ⟨a.alerts ++ b.alerts, a.triggers ++ b.triggers⟩

instance : Append Outbox := ⟨append⟩

end Outbox

/-- What the desk tells: whether it raises alerts, and the stock at or below which it asks for a
new range, if it does. -/
structure Desk where
  raisesAlerts : Bool
  lowWater : Option Nat
deriving DecidableEq

namespace Desk

/-- The trigger that the stock of a series gives rise to. -/
def lowStock (d : Desk) (s : Store) (now : Instant) (series : Series) : List Trigger :=
  match d.lowWater with
  | some threshold =>
    if s.countAvailable series now.toMillis ≤ threshold then [⟨series, threshold⟩] else []
  | none => []

/-- The alert that no folio of a series remains. -/
def exhaustion (d : Desk) (series : Series) (remaining : Nat) : List Alert :=
  if remaining = 0 ∧ d.raisesAlerts then [.foliosExhausted series] else []

/-- Hands out the next folio of a series. -/
def assign (d : Desk) (s : Store) (now : Instant) (series : Series) (document : Option String) :
    Except Failure Assignment × Store × Outbox :=
  let triggers := d.lowStock s now series
  match s.assign now series document with
  | .ok (a, s') => (.ok a, s', ⟨d.exhaustion series a.remaining, triggers⟩)
  | .error failure => (.error failure, s, ⟨[], triggers⟩)

/-- Voids a folio. -/
def void (d : Desk) (s : Store) (now : Instant) (series : Series) (number : Nat)
    (reason : String) : Except Failure Folio × Store × Outbox :=
  match s.void now series number reason with
  | .ok ((folio, remaining), s') => (.ok folio, s', ⟨d.exhaustion series remaining, []⟩)
  | .error failure => (.error failure, s, Outbox.empty)

end Desk

end FolioLedger
