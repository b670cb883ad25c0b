import FolioLedger.Series
import FolioLedger.Status
import FolioLedger.Text.Numeral
import FolioLedger.Time.Printer

/-!
# Failures

Why an operation did not do what it was asked for.  A failure is a cause with the facts that
belong to it; the wording is in `Failure.message` alone.  Each group of causes has a member
`stated` for a reason that another party gave in words of its own.
-/

namespace FolioLedger

/-- Bounds or times of a range that do not hold up. -/
inductive RangeFault where
  | incompleteSeries
  | startBelowOne (start : Nat)
  | endBeforeStart (first last : Nat)
  | tooLarge (size limit : Nat)
  | expiryNotLater
  | notAboveIssued (start issued : Nat) (series : Series)
  | numberTooLarge (number : Nat)
  | stated (reason : String)
deriving DecidableEq

/-- A request that cannot be served as it stands. -/
inductive RequestFault where
  | incompleteSeries
  | invalidBounds (first last : Nat)
  | quantityTooLarge (quantity limit : Nat)
  | beyondNumbers
  | missingVoidReason
  | periodReversed
  | notPending (status : RequestStatus)
  | alreadyRequested (series : Series) (trackingId : String)
  | alreadyStarted
  | refused (status : Nat) (body : String)
  | stated (reason : String)
deriving DecidableEq

/-- Settings that cannot be used. -/
inductive ConfigFault where
  | requestQuantityZero
  | maxRangeSizeZero
  | quantityAboveLimit (quantity limit : Nat)
  | nearExpiryNegative
  | validityMonthsZero
  | intervalZero
  | intervalNotBelowTtl (interval ttl : Nat)
  | timeoutBelowInterval
  | unreadableFile (path cause : String)
  | malformed
  | unreadableKey (path : String)
  | malformedKey (path : String)
  | credentialsRefused (status : Nat)
  | stated (message : String)
deriving DecidableEq

/-- An artifact that does not authorize what it is taken for. -/
inductive ArtifactFault where
  | malformed
  | otherDocType (expected actual : String)
  | invalidBounds (first last : Nat)
  | expiryOutOfRange
  | expired (moment : Instant)
  | otherBounds (first last requestedFirst requestedLast : Nat)
  | noLocation (trackingId : String)
  | stated (reason : String)
deriving DecidableEq

/-- A signature that proves nothing. -/
inductive SignatureFault where
  | untrustedKey (keyId : String)
  | notBase64
  | wrongLength
  | mismatch
  | stated (reason : String)
deriving DecidableEq

/-- What the store cannot hold or give back. -/
inductive StorageFault where
  | unknownRangeStatus (word : String)
  | unknownFolioStatus (word : String)
  | unknownRequestStatus (word : String)
  | timeOutOfRange (ms : Millis)
  | expiryNotLater
  | rangeIdTaken
  | full
  | stated (message : String)
deriving DecidableEq

/-- Something that is asked for and not there. -/
inductive Missing where
  | range (id : String)
  | activeRange (series : Series)
  | folio (series : Series) (number : Nat)
  | request (trackingId : String)
  | resource (url : String)
  | stated (what : String)
deriving DecidableEq

/-- A change of state that is not allowed. -/
inductive Transition where
  | voiding (series : Series) (number : Nat) (status : FolioStatus)
  | binding (series : Series) (number : Nat) (status : FolioStatus)
  | rebinding (series : Series) (number : Nat) (bound document : String)
  | resolving (trackingId : String) (status target : RequestStatus)
  | stated (subject : String)
deriving DecidableEq

/-- Why the authority could not be made to answer. -/
inductive Outage where
  | rateLimited
  | serverError (status : Nat) (body : String)
  | transport (url : String)
  | unusableRequest
  | unusableUrl (url : String)
  | tooManyRedirects (url : String)
  | unreadableBody
  | malformedSubmission
  | malformedStatus
  | emptyTrackingId
  | unknownStatus (status : String)
  | stated (message : String)
deriving DecidableEq

/-- Why an operation failed. -/
inductive Failure where
  /-- Somebody else holds the lock. -/
  | lockBusy (key : String)
  /-- The lease ran out or passed to somebody else. -/
  | lockLost (key : String)
  /-- Some number of the new range already belongs to a range of the series. -/
  | rangeOverlap (series : Series) (first last : Nat) (existing : String)
  | invalidRange (fault : RangeFault)
  /-- The series has no available folio at all. -/
  | noFolioAvailable (series : Series)
  /-- The only ranges that still hold folios have expired. -/
  | authorizationExpired (series : Series) (rangeId : String) (expiredAt : Instant)
  | authorityRejected (trackingId reason : String)
  | authorityTimeout (trackingId : String)
  | authorityUnavailable (outage : Outage)
  | signatureInvalid (fault : SignatureFault)
  | issuerMismatch (expected actual : String)
  | invalidArtifact (fault : ArtifactFault)
  | invalidTransition (transition : Transition)
  | notFound (missing : Missing)
  | invalidRequest (fault : RequestFault)
  | invalidConfig (fault : ConfigFault)
  | storage (fault : StorageFault)
deriving DecidableEq

/-! ## Wording -/

/-- A number in messages. -/
def numberText (n : Nat) : String := Numeral.padded 1 n

/-- Bounds in messages. -/
def boundsText (first last : Nat) : String :=
  numberText first ++ "..=" ++ numberText last

/-- A folio in messages. -/
def folioText (series : Series) (number : Nat) : String :=
  "folio " ++ series.label ++ "/" ++ numberText number

def RangeFault.message : RangeFault → String
  | incompleteSeries => "issuer and document type are required"
  | startBelowOne start => "start must be >= 1, got " ++ numberText start
  | endBeforeStart first last =>
    "end " ++ numberText last ++ " is before start " ++ numberText first
  | tooLarge size limit =>
    "range of " ++ numberText size ++ " folios exceeds maximum of " ++ numberText limit
  | expiryNotLater => "expiry must be after authorization"
  | notAboveIssued start issued series =>
    "start " ++ numberText start ++ " is not above folio " ++ numberText issued ++
      " already issued for " ++ series.label
  | numberTooLarge number => "number " ++ numberText number ++ " exceeds storage range"
  | stated reason => reason

def RequestFault.message : RequestFault → String
  | incompleteSeries => "issuer and document type are required"
  | invalidBounds first last => "invalid bounds " ++ boundsText first last
  | quantityTooLarge quantity limit =>
    "requested " ++ numberText quantity ++ " folios, maximum per request is " ++ numberText limit
  | beyondNumbers => "requested range exceeds numbering space"
  | missingVoidReason => "void reason is required"
  | periodReversed => "report period ends before it starts"
  | notPending status => "new request must be PENDING, got " ++ status.word
  | alreadyRequested series trackingId =>
    "a pending request already exists for " ++ series.label ++ " or tracking id " ++ trackingId ++
      " is taken"
  | alreadyStarted => "engine already started"
  | refused status body => "authority returned HTTP " ++ numberText status ++ ": " ++ body
  | stated reason => reason

def ConfigFault.message : ConfigFault → String
  | requestQuantityZero => "request_quantity must be at least 1"
  | maxRangeSizeZero => "max_range_size must be at least 1"
  | quantityAboveLimit quantity limit =>
    "request_quantity " ++ numberText quantity ++ " exceeds max_range_size " ++ numberText limit
  | nearExpiryNegative => "near_expiry_days must not be negative"
  | validityMonthsZero => "validity_months must be at least 1"
  | intervalZero => "poll and watcher intervals must be positive"
  | intervalNotBelowTtl interval ttl =>
    "poll_interval_secs " ++ numberText interval ++
      " must be shorter than request_lock_ttl_secs " ++ numberText ttl
  | timeoutBelowInterval => "poll_timeout_secs must be at least one poll interval"
  | unreadableFile path cause => "failed to read " ++ path ++ ": " ++ cause
  | malformed => "invalid config: not a document of settings"
  | unreadableKey path => "failed to read public key " ++ path ++ ": no such text file"
  | malformedKey path => "failed to parse public key PEM " ++ path ++ ": not a public key"
  | credentialsRefused status =>
    "authority refused credentials (HTTP " ++ numberText status ++ ")"
  | stated message => message

def ArtifactFault.message : ArtifactFault → String
  | malformed => "malformed artifact: not an artifact document"
  | otherDocType expected actual =>
    "document type mismatch: expected " ++ expected ++ ", artifact has " ++ actual
  | invalidBounds first last => "invalid bounds " ++ boundsText first last
  | expiryOutOfRange => "expiry out of range"
  | expired moment => "authorization expired at " ++ moment.display
  | otherBounds first last requestedFirst requestedLast =>
    "artifact covers " ++ boundsText first last ++ ", request was " ++
      boundsText requestedFirst requestedLast
  | noLocation trackingId => "accepted request " ++ trackingId ++ " has no artifact_url"
  | stated reason => reason

def SignatureFault.message : SignatureFault → String
  | untrustedKey keyId => "key not trusted: " ++ keyId
  | notBase64 => "invalid base64 signature: not in standard form"
  | wrongLength => "invalid signature bytes: not 64 bytes"
  | mismatch => "ed25519 verification failed"
  | stated reason => reason

def StorageFault.message : StorageFault → String
  | unknownRangeStatus word => "unknown range status: " ++ word
  | unknownFolioStatus word => "unknown folio status: " ++ word
  | unknownRequestStatus word => "unknown request status: " ++ word
  | timeOutOfRange ms => "timestamp out of range: " ++ Numeral.signed ms
  | expiryNotLater => "CHECK constraint failed: expires_at_ms > authorized_at_ms"
  | rangeIdTaken => "UNIQUE constraint failed: authorization_ranges.range_id"
  | full => "disk full"
  | stated message => message

def Missing.message : Missing → String
  | range id => "range " ++ id
  | activeRange series => "active range for " ++ series.label
  | folio series number => folioText series number
  | request trackingId => "replenishment request " ++ trackingId
  | resource url => "authority resource " ++ url
  | stated what => what

def Transition.message : Transition → String
  | voiding series number status =>
    folioText series number ++ ": " ++ status.word ++ " -> " ++ FolioStatus.void.word
  | binding series number status => folioText series number ++ ": " ++ status.word ++ " -> bound"
  | rebinding series number bound document =>
    folioText series number ++ ": bound to " ++ bound ++ " -> bound to " ++ document
  | resolving trackingId status target =>
    "request " ++ trackingId ++ ": " ++ status.word ++ " -> " ++ target.word
  | stated subject => subject

def Outage.message : Outage → String
  | rateLimited => "rate limited"
  | serverError status body => "HTTP " ++ numberText status ++ ": " ++ body
  | transport url => "error sending request for url (" ++ url ++ ")"
  | unusableRequest => "builder error"
  | unusableUrl url => "builder error for url (" ++ url ++ ")"
  | tooManyRedirects url => "error following redirect for url (" ++ url ++ ")"
  | unreadableBody => "error decoding response body"
  | malformedSubmission => "malformed submit response: not the expected document"
  | malformedStatus => "malformed status response: not the expected document"
  | emptyTrackingId => "authority returned an empty tracking id"
  | unknownStatus status => "unknown request status from authority: " ++ status
  | stated message => message

namespace Failure

/-- What is said about a failure. -/
def message : Failure → String
  | lockBusy key => "lock busy: " ++ key
  | lockLost key => "lock lost: " ++ key
  | rangeOverlap series first last existing =>
    "range " ++ boundsText first last ++ " for " ++ series.label ++ " overlaps existing range " ++
      existing
  | invalidRange fault => "invalid range: " ++ fault.message
  | noFolioAvailable series => "no folio available for " ++ series.label
  | authorizationExpired series rangeId expiredAt =>
    "authorization range " ++ rangeId ++ " for " ++ series.label ++ " expired at " ++
      expiredAt.display
  | authorityRejected trackingId reason =>
    "authority rejected request " ++ trackingId ++ ": " ++ reason
  | authorityTimeout trackingId =>
    "authority did not resolve request " ++ trackingId ++ " in time"
  | authorityUnavailable outage => "authority unavailable: " ++ outage.message
  | signatureInvalid fault => "signature verification failed: " ++ fault.message
  | issuerMismatch expected actual =>
    "issuer mismatch: expected " ++ expected ++ ", artifact has " ++ actual
  | invalidArtifact fault => "invalid artifact: " ++ fault.message
  | invalidTransition transition => "invalid transition for " ++ transition.message
  | notFound missing => "not found: " ++ missing.message
  | invalidRequest fault => "invalid request: " ++ fault.message
  | invalidConfig fault => "configuration error: " ++ fault.message
  | storage fault => "database error: " ++ fault.message

/-- The exit status of a command that fails so. -/
def exitCode : Failure → Nat
  | invalidRange _ | invalidRequest _ | notFound _ | invalidConfig _ | invalidTransition _ => 1
  | noFolioAvailable _ => 2
  | authorizationExpired .. => 3
  | rangeOverlap .. | signatureInvalid _ | issuerMismatch .. | invalidArtifact _ => 4
  | authorityRejected .. => 5
  | authorityTimeout _ | lockBusy _ | lockLost _ | authorityUnavailable _ => 6
  | storage _ => 7

/-- Whether the same operation may succeed later. -/
def isTransient : Failure → Bool
  | lockBusy _ | lockLost _ | authorityTimeout _ | authorityUnavailable _ => true
  | _ => false

end Failure

/-- The instant at a millisecond, or the failure that there is none. -/
def Instant.ofMillis (ms : Millis) : Except Failure Instant :=
  match Instant.ofMillis? ms with
  | some t => .ok t
  | none => .error (.storage (.timeOutOfRange ms))

end FolioLedger
