import FolioLedger.Authority.Basic
import FolioLedger.Config.Basic
import FolioLedger.Http.Exchange
import FolioLedger.Json.Bytes
import FolioLedger.Json.Printer
import FolioLedger.Text.Base64
import FolioLedger.Text.Blank

/-!
# The authority over HTTP

Requests are submitted to `caf/requests` below the authority's URL and asked for there by tracking
id; an artifact is fetched from its location.  An attempt that the network or the server spoils is
repeated, as often as the settings allow.  `Authority.overHttp` is the whole client.
-/

namespace FolioLedger

open Http

namespace AuthorityConfig

/-- The authority's URL without slashes at its end. -/
def base (c : AuthorityConfig) : String :=
  String.ofList (c.url.toList.reverse.dropWhile (· = '/')).reverse

/-- Where requests are submitted. -/
def submissionUrl (c : AuthorityConfig) : String :=
  c.base ++ "/caf/requests"

/-- Where a request is asked for. -/
def statusUrl (c : AuthorityConfig) (trackingId : String) : String :=
  c.submissionUrl ++ "/" ++ trackingId

/-- The URL of a location: an absolute one itself, else one below the authority's. -/
def locate (c : AuthorityConfig) (location : String) : String :=
  if location.startsWith "http://" || location.startsWith "https://" then location
  else c.base ++ "/" ++ String.ofList (location.toList.dropWhile (· = '/'))

/-- Whether a token can stand in a header. -/
def tokenIsUsable (token : String) : Bool :=
  token.toList.all fun c => (0x20 ≤ c.toNat && c.toNat ≠ 0x7F) || c == '\t'

/-- What name and password in a URL let in with. -/
def basicAuthorization (u : Url) : List String :=
  if u.username = "" ∧ u.password = none then []
  else
    let decode := fun (s : String) => Percent.decode s.toList
    let secret := decode u.username ++ [0x3A] ++ (u.password.elim [] decode)
    ["Basic " ++ Base64.encode ⟨secret.toArray⟩]

/-- The request for a URL, or why none can be made. -/
def request (c : AuthorityConfig) (method : Method) (url : String) (body : Option String) :
    Except Outage Request :=
  match Url.parse? url with
  | none => .error .unusableRequest
  | some u =>
    let bare := { u with username := "", password := none }
    if !u.hasHost then .error (.unusableUrl bare.render)
    else if c.token.any (!tokenIsUsable ·) then .error .unusableRequest
    else if !bare.isReachable then .error (.unusableUrl bare.render)
    else .ok {
      method
      url := bare
      authorization := basicAuthorization u ++ c.token.toList.map ("Bearer " ++ ·)
      body }

end AuthorityConfig

/-! ## Attempts -/

/-- How one attempt ends. -/
inductive Attempt where
  /-- The server did what it was asked for. -/
  | answered (answer : Answer)
  /-- Another attempt may do better. -/
  | spoiled (outage : Outage)
  /-- The server says no. -/
  | refused (failure : Failure)

/-- What an answer means to the request for a URL. -/
def Attempt.ofAnswer (url : String) (a : Answer) : Attempt :=
  if 200 ≤ a.status ∧ a.status ≤ 299 then .answered a
  else if a.status = 401 ∨ a.status = 403 then
    .refused (.invalidConfig (.credentialsRefused a.status))
  else if a.status = 404 then .refused (.notFound (.resource url))
  else if a.status = 429 then .spoiled .rateLimited
  else if 500 ≤ a.status ∧ a.status ≤ 599 then .spoiled (.serverError a.status a.text)
  else .refused (.invalidRequest (.refused a.status a.text))

/-- What an attempt comes to if it is the last one. -/
def Attempt.outcome : Attempt → Except Failure Answer
  | answered a => .ok a
  | spoiled outage => .error (.authorityUnavailable outage)
  | refused failure => .error failure

variable {m : Type → Type} [Monad m]

/-- Makes attempts until one is not spoiled, with at most `retries` after the first.

The pause before each repetition is left out.  Chance draws it: up to `2 ^ k` seconds before the `k`-th
repetition, or about what a server that limits its clients asks for, and 30 seconds at most.  It
decides neither what is attempted nor what comes of it, and the clock that is read afterwards may read
anything here.  The power is a shift of 64 bits that wraps around; where shifts are checked instead,
there is no 64th repetition. -/
def persist (attempt : m Attempt) : Nat → m (Except Failure Answer)
  | 0 => do return (← attempt).outcome
  | retries + 1 => do
    match ← attempt with
    | .spoiled _ => persist attempt retries
    | a => return a.outcome

namespace AuthorityConfig

variable (c : AuthorityConfig) (peer : Peer m)

/-- One attempt at a URL. -/
def attempt (method : Method) (url : String) (body : Option String) : m Attempt := do
  match c.request method url body with
  | .error outage => return .spoiled outage
  | .ok r =>
    match ← follow peer maxHops r with
    | .error outage => return .spoiled outage
    | .ok a => return Attempt.ofAnswer url a

/-- As many attempts as it takes, within the settings. -/
def ask (method : Method) (url : String) (body : Option String) : m (Except Failure Answer) :=
  persist (c.attempt peer method url body) c.maxRetries

end AuthorityConfig

/-! ## Answers -/

/-- The document of an answer. -/
def Http.Answer.document? (a : Answer) : Option Json :=
  a.body.bind Json.parseBytes?

/-- The tracking id that the answer to a submission gives. -/
def readSubmission (a : Answer) : Except Failure String :=
  let trackingId? := do
    match ← (← a.document?).fields? ["tracking_id"] with
    | [field] => Json.needed Json.text? field
    | _ => none
  match trackingId? with
  | none => .error (.authorityUnavailable .malformedSubmission)
  | some trackingId =>
    if isBlank trackingId then .error (.authorityUnavailable .emptyTrackingId)
    else .ok trackingId

/-- The status that an answer gives of a request. -/
def readStatus (trackingId : String) (a : Answer) : Except Failure AuthorityStatus :=
  let report? := do
    match ← (← a.document?).fields? ["status", "artifact_url", "reason"] with
    | [status, location, reason] =>
      some (← Json.needed Json.text? status, ← Json.lenient Json.text? location,
        ← Json.lenient Json.text? reason)
    | _ => none
  match report? with
  | none => .error (.authorityUnavailable .malformedStatus)
  | some (status, location, reason) =>
    match status.toUpper with
    | "PENDING" => .ok .pending
    | "ACCEPTED" =>
      match location with
      | some location => .ok (.accepted location)
      | none => .error (.invalidArtifact (.noLocation trackingId))
    | "REJECTED" => .ok (.rejected (reason.getD "no reason provided"))
    | other => .error (.authorityUnavailable (.unknownStatus other))

/-- The bytes of an answer. -/
def readArtifact (a : Answer) : Except Failure ByteArray :=
  match a.body with
  | some bytes => .ok bytes
  | none => .error (.authorityUnavailable .unreadableBody)

/-- The authority that is reached through a peer. -/
def Authority.overHttp (c : AuthorityConfig) (peer : Peer m) : Authority m where
  submit r :=
    return (← c.ask peer .post c.submissionUrl (some r.toJson.compact)).bind readSubmission
  status trackingId :=
    return (← c.ask peer .get (c.statusUrl trackingId) none).bind (readStatus trackingId)
  download location := return (← c.ask peer .get (c.locate location) none).bind readArtifact

end FolioLedger
