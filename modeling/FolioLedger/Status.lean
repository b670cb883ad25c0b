/-!
# States of ranges, folios and requests

The states and the words that stand for them in documents.
-/

namespace FolioLedger

/-- The state of an authorization range.  Only an active one changes. -/
inductive RangeStatus where
  | active
  | expired
  | exhausted
deriving DecidableEq, Repr, Inhabited

namespace RangeStatus

def word : RangeStatus → String
  | active => "ACTIVE"
  | expired => "EXPIRED"
  | exhausted => "EXHAUSTED"

def ofWord? (s : String) : Option RangeStatus :=
  [active, expired, exhausted].find? (·.word = s)

/-- Whether the state is final. -/
def isFinal : RangeStatus → Bool
  | active => false
  | _ => true

end RangeStatus

/-- The state of a folio.  Only an available one changes. -/
inductive FolioStatus where
  | available
  | used
  | void
deriving DecidableEq, Repr, Inhabited

namespace FolioStatus

def word : FolioStatus → String
  | available => "AVAILABLE"
  | used => "USED"
  | void => "VOID"

def ofWord? (s : String) : Option FolioStatus :=
  [available, used, void].find? (·.word = s)

end FolioStatus

/-- The state of a request to the authority.  Only a pending one changes. -/
inductive RequestStatus where
  | pending
  | accepted
  | rejected
  | timedOut
deriving DecidableEq, Repr, Inhabited

namespace RequestStatus

def word : RequestStatus → String
  | pending => "PENDING"
  | accepted => "ACCEPTED"
  | rejected => "REJECTED"
  | timedOut => "TIMED_OUT"

def ofWord? (s : String) : Option RequestStatus :=
  [pending, accepted, rejected, timedOut].find? (·.word = s)

/-- Whether the state is final. -/
def isFinal : RequestStatus → Bool
  | pending => false
  | _ => true

end RequestStatus

/-- How long a range is still good for, seen from some day. -/
inductive Validity where
  | valid
  | nearExpiry
  | expired
deriving DecidableEq, Repr, Inhabited

namespace Validity

def word : Validity → String
  | valid => "VALID"
  | nearExpiry => "NEAR_EXPIRY"
  | expired => "EXPIRED"

def ofWord? (s : String) : Option Validity :=
  [valid, nearExpiry, expired].find? (·.word = s)

/-- The name of a validity in reports for people. -/
def label : Validity → String
  | valid => "Valid"
  | nearExpiry => "NearExpiry"
  | expired => "Expired"

end Validity

end FolioLedger
