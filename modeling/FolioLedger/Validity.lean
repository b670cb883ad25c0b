import FolioLedger.Status
import FolioLedger.Time.Instant

/-!
# Validity of a range

A range is expired from the instant of its expiry on.  Before, it is near expiry when the whole
days left are within the warning window.
-/

namespace FolioLedger

/-- The validity of a range that expires at `expiresAt`, seen at `now` with a warning window of
`nearDays` days, and the whole days left, rounded toward zero. -/
def classifyValidity (expiresAt now : Instant) (nearDays : Int) : Validity × Int :=
  let days := expiresAt.daysSince now
  if expiresAt ≤ now then (.expired, days)
  else if days ≤ nearDays then (.nearExpiry, days)
  else (.valid, days)

end FolioLedger
