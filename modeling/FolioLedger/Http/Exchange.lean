import FolioLedger.Failure
import FolioLedger.Http.Status
import FolioLedger.Http.Url

/-!
# Exchanges over HTTP

A request goes to a peer, which answers or cannot be reached.  An answer may send the request
elsewhere; it is followed there, up to ten times.  `follow` gives the last answer, whatever its
status.
-/

namespace FolioLedger.Http

inductive Method where
  | get
  | post
deriving DecidableEq

/-- The word of a method. -/
def Method.word : Method → String
  | get => "GET"
  | post => "POST"

/-- What is asked of a server. -/
structure Request where
  method : Method
  url : Url
  /-- What the sender shows to be let in. -/
  authorization : List String
  /-- A document, in JSON. -/
  body : Option String
deriving DecidableEq

/-- How the sender names itself. -/
def userAgent : String := "folio-core/0.4.0"

/-- The headers of a request. -/
def Request.headers (r : Request) : List (String × String) :=
  ("user-agent", userAgent) :: r.authorization.map (("authorization", ·)) ++
    (if r.body.isSome then [("content-type", "application/json")] else [])

/-- What a server answers. -/
structure Answer where
  status : Nat
  /-- Where to turn instead. -/
  location : Option String
  /-- The body; none if it broke off. -/
  body : Option ByteArray

/-- The text of a body that can be read, else the status line. -/
def Answer.text (a : Answer) : String :=
  match a.body with
  | some bytes => String.ofList (Utf8.decode bytes.toList)
  | none => statusLine a.status

/-- The other end of a connection; no answer if there is no connection or it breaks. -/
abbrev Peer (m : Type → Type) := Request → m (Option Answer)

/-- Whether requests can go to a URL. -/
def Url.isReachable (u : Url) : Bool :=
  (u.scheme = "http" || u.scheme = "https") &&
    !(u.host.any fun h => h.toList.any (· ∈ ['"', '\x60', '\x7b', '\x7d'])) &&
    u.render.utf8ByteSize < 65535

/-- The request that an answer with a place to turn to asks for.  A document is sent on only when
the answer says that the request is to be the same; what lets the sender in, only to the same
host. -/
def Request.redirected (r : Request) (status : Nat) (url : Url) : Request :=
  let authorization :=
    if url.host = r.url.host ∧ url.effectivePort = r.url.effectivePort then r.authorization else []
  if status = 307 ∨ status = 308 then { r with url, authorization }
  else { method := .get, url, authorization, body := none }

/-- Where an answer sends a request, if it does. -/
def Request.turn? (r : Request) (a : Answer) : Option Url :=
  if a.status ∈ [301, 302, 303, 307, 308] then a.location.bind r.url.join? else none

variable {m : Type → Type} [Monad m]

/-- Sends a request and follows where it is sent, at most `hops` times. -/
def follow (peer : Peer m) : Nat → Request → m (Except Outage Answer)
  | hops, r => do
    match ← peer r with
    | none => return .error (.transport r.url.render)
    | some a =>
      match r.turn? a, hops with
      | none, _ => return .ok a
      | some _, 0 => return .error (.tooManyRedirects r.url.render)
      | some url, hops + 1 =>
        if url.isReachable then follow peer hops (r.redirected a.status url)
        else return .error (.unusableUrl url.render)

/-- How often a request is sent elsewhere before it is given up. -/
def maxHops : Nat := 10

end FolioLedger.Http
