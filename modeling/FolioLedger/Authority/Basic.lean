import FolioLedger.Document.Request

/-!
# The numbering authority

The party that approves ranges.  A request is submitted and gets a tracking id; its status is asked
for until it is accepted or rejected; of an accepted one the artifact is fetched from a location.
-/

namespace FolioLedger

/-- What the authority says about a request. -/
inductive AuthorityStatus where
  | pending
  | accepted (location : String)
  | rejected (reason : String)
deriving DecidableEq

/-- The authority, as it is reached from a program whose effects are in `m`. -/
structure Authority (m : Type → Type) where
  /-- Hands in a request and gives its tracking id. -/
  submit : RangeRequest → m (Except Failure String)
  status : String → m (Except Failure AuthorityStatus)
  /-- Fetches the bytes of an artifact. -/
  download : String → m (Except Failure ByteArray)

end FolioLedger
