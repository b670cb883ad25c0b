import FolioLedger.Http.Host

/-!
# URLs

A URL in its parts, each in its one spelling: scheme and host in lower case, the usual port left
out, dots in the path resolved, and encoded what a part may not hold.  A URL is read from a text of
its own, or relative to another URL.
-/

namespace FolioLedger.Http

/-- The path of a URL: names between slashes, or in schemes without them a plain text. -/
inductive Url.Path where
  | names (names : List String)
  | plain (text : String)
deriving DecidableEq

/-- A URL.  Name, password, path, query and fragment are encoded. -/
structure Url where
  scheme : String
  username : String
  password : Option String
  /-- The host; empty in a URL that has a place for one and names none. -/
  host : Option String
  port : Option Nat
  path : Url.Path
  query : Option String
  fragment : Option String
deriving DecidableEq

namespace Url

/-- The usual port of a scheme of the web. -/
def usualPort? : String → Option Nat
  | "http" | "ws" => some 80
  | "https" | "wss" => some 443
  | "ftp" => some 21
  | _ => none

/-- Whether backslashes are slashes in URLs of a scheme and a host is checked. -/
def isSpecial (scheme : String) : Bool :=
  (usualPort? scheme).isSome || scheme == "file"

/-- Whether some host is named. -/
def hasHost (u : Url) : Bool :=
  u.host.any (· ≠ "")

/-- The port that is connected to. -/
def effectivePort (u : Url) : Option Nat :=
  u.port.orElse fun _ => usualPort? u.scheme

/-! ## Writing -/

def Path.render (hasAuthority : Bool) : Path → String
  | .plain text => text
  | .names parts =>
    let text := String.join (parts.map ("/" ++ ·))
    if !hasAuthority && parts.length > 1 && parts.head? = some "" then "/." ++ text else text

/-- Name and password before a host. -/
def credentials (u : Url) : String :=
  if u.username = "" ∧ u.password = none then ""
  else u.username ++ (u.password.elim "" (":" ++ ·)) ++ "@"

/-- The text of a URL. -/
def render (u : Url) : String :=
  u.scheme ++ ":" ++
    (u.host.elim "" fun h => "//" ++ u.credentials ++ h) ++
    (u.port.elim "" fun p => ":" ++ Numeral.padded 1 p) ++
    u.path.render u.host.isSome ++
    (u.query.elim "" ("?" ++ ·)) ++ (u.fragment.elim "" ("#" ++ ·))

/-- Path and query, as a server is asked for them. -/
def target (u : Url) : String :=
  u.path.render true ++ (u.query.elim "" ("?" ++ ·))

/-! ## Reading -/

/-- A text without the controls and spaces around it and the line breaks and tabs in it. -/
def clean (cs : List Char) : List Char :=
  let isEdge := fun (c : Char) => c.toNat ≤ 0x20
  let trimmed := ((cs.dropWhile isEdge).reverse.dropWhile isEdge).reverse
  trimmed.filter fun c => c ∉ ['\t', '\n', '\r']

/-- The scheme before a colon and the text after it. -/
def splitScheme? (cs : List Char) : Option (String × List Char) :=
  let (name, rest) := cs.span fun c => c.isAlphanum || c ∈ ['+', '-', '.']
  match name, rest with
  | c :: _, ':' :: rest =>
    if c.isAlpha then some (String.ofList (name.map Char.toLower), rest) else none
  | _, _ => none

def isSlash (special : Bool) (c : Char) : Bool :=
  c == '/' || (special && c == '\\')

/-- The path of a text that begins with it, and the rest. -/
def splitPath (cs : List Char) : List Char × List Char :=
  cs.span fun c => c ∉ ['?', '#']

/-- Query and fragment of the rest behind a path. -/
def readTail (special : Bool) (cs : List Char) : Option String × Option String :=
  let (query, rest) := cs.span (· ≠ '#')
  let fragment := match rest with
    | _ :: text => some (Percent.encode Percent.inFragment text)
    | [] => none
  let query := match query with
    | _ :: text =>
      some (Percent.encode (if special then Percent.inWebQuery else Percent.inQuery) text)
    | [] => none
  (query, fragment)

/-- Whether a name of a path, in which dots may be encoded, is a given number of dots. -/
def isDots : Nat → List Char → Bool
  | 0, [] => true
  | n + 1, '.' :: cs => isDots n cs
  | n + 1, '%' :: '2' :: 'e' :: cs => isDots n cs
  | n + 1, '%' :: '2' :: 'E' :: cs => isDots n cs
  | _, _ => false

/-- The parts of a path between its slashes. -/
def splitSlashes (special : Bool) : List Char → List (List Char)
  | [] => [[]]
  | c :: cs =>
    match splitSlashes special cs with
    | part :: parts =>
      if isSlash special c then [] :: part :: parts else (c :: part) :: parts
    | [] => [[c]]

/-- Goes from a path along further names: one dot stays, two dots go back. -/
def walk (path : List String) : List (List Char) → List String
  | [] => path
  | name :: names =>
    if isDots 2 name then
      walk (if names = [] then path.dropLast ++ [""] else path.dropLast) names
    else if isDots 1 name then walk (if names = [] then path ++ [""] else path) names
    else walk (path ++ [Percent.encode Percent.inPath name]) names

/-- The path of a text that follows a host. -/
def readPath (special : Bool) (cs : List Char) : List String :=
  match cs with
  | [] => if special then [""] else []
  | c :: rest =>
    walk [] (splitSlashes special (if isSlash special c then rest else cs))

/-- The text up to the last place of a character, and the text after it. -/
def splitLast (sep : Char) (cs : List Char) : Option (List Char × List Char) :=
  if cs.contains sep then
    let (after, before) := cs.reverse.span (· ≠ sep)
    some ((before.drop 1).reverse, after.reverse)
  else none

/-- A port; one that is usual, or empty, is left out. -/
def readPort? (scheme : String) (cs : List Char) : Option (Option Nat) := do
  if cs.all Char.isDigit then
    let n := cs.foldl (fun n d => 10 * n + (d.toNat - '0'.toNat)) 0
    if n < 65536 then
      some (if cs = [] ∨ usualPort? scheme = some n then none else some n)
    else none
  else none

/-- Host and port are parted at the first colon outside brackets. -/
def splitPort : Bool → List Char → List Char × Option (List Char)
  | _, [] => ([], none)
  | inBrackets, c :: cs =>
    if c = ':' ∧ !inBrackets then ([], some cs)
    else
      let (host, port) := splitPort (if c = '[' then true else if c = ']' then false
        else inBrackets) cs
      (c :: host, port)

/-- A URL from what follows the double slash behind its scheme. -/
def readAuthority? (scheme : String) (cs : List Char) : Option Url := do
  let special := isSpecial scheme
  let (authority, rest) := cs.span fun c => !(isSlash special c || c ∈ ['?', '#'])
  let (info, place) := match splitLast '@' authority with
    | some (info, place) => (some info, place)
    | none => (none, authority)
  let (hostText, portText) := splitPort false place
  if hostText = [] ∧ (special ∨ info.isSome ∨ portText.isSome) then none
  let host ← if special then Host.read? hostText else Host.readOther? hostText
  let port ← match portText with
    | some text => readPort? scheme text
    | none => some none
  let (name, secret) := (info.getD []).span (· ≠ ':')
  let secret := secret.drop 1
  let (path, rest) := splitPath rest
  let (query, fragment) := readTail special rest
  some {
    scheme
    username := Percent.encode Percent.inUserInfo name
    password := if secret = [] then none else some (Percent.encode Percent.inUserInfo secret)
    host := some host
    port
    path := .names (readPath special path)
    query
    fragment }

/-- A URL without name, password and port. -/
def plainUrl (scheme : String) (host : Option String) (path : Path) (special : Bool)
    (rest : List Char) : Url :=
  let (query, fragment) := readTail special rest
  { scheme, username := "", password := none, host, port := none, path, query, fragment }

/-- A URL of a file, from what follows its scheme.  The machine itself is named by no host. -/
def readFile? (cs : List Char) : Option Url := do
  let (slashes, after) := cs.span (isSlash true)
  let (hostText, rest) := if slashes.length < 2 then ([], cs)
    else (slashes.drop 2 ++ after).span fun c => !(isSlash true c || c ∈ ['?', '#'])
  let host ← if hostText = [] then some "" else Host.read? hostText
  let (path, rest) := splitPath rest
  some (plainUrl "file" (some (if host = "localhost" then "" else host))
    (.names (readPath true path)) true rest)

/-- A URL of a scheme of its own, from what follows the scheme. -/
def readOther? (scheme : String) (cs : List Char) : Option Url :=
  match cs with
  | '/' :: '/' :: rest => readAuthority? scheme rest
  | '/' :: _ =>
    let (path, rest) := splitPath cs
    some (plainUrl scheme none (.names (readPath false path)) false rest)
  | _ =>
    let (path, rest) := splitPath cs
    some (plainUrl scheme none (.plain (Percent.encode Percent.isControl path)) false rest)

/-- A URL from its scheme and what follows it. -/
def readScheme? (scheme : String) (cs : List Char) : Option Url :=
  if scheme = "file" then readFile? cs
  else if isSpecial scheme then readAuthority? scheme (cs.dropWhile (isSlash true))
  else readOther? scheme cs

/-- The URL that a text denotes. -/
def parse? (text : String) : Option Url := do
  let (scheme, rest) ← splitScheme? (clean text.toList)
  readScheme? scheme rest

/-! ## Relative to another URL -/

/-- The names of a path; of a plain one, none. -/
def Path.toNames : Path → List String
  | .names parts => parts
  | .plain _ => []

/-- A text without scheme, seen from a URL of the web. -/
def relative? (base : Url) (cs : List Char) : Option Url :=
  let (slashes, after) := cs.span (isSlash true)
  if 2 ≤ slashes.length then readAuthority? base.scheme after
  else
    let (path, rest) := splitPath cs
    let (query, fragment) := readTail true rest
    let names := if slashes ≠ [] then readPath true path
      else if path = [] then base.path.toNames
      else walk base.path.toNames.dropLast (splitSlashes true path)
    let query := if path = [] ∧ query = none then base.query else query
    some { base with path := .names names, query, fragment }

/-- The URL that a text denotes on a page at a URL of the web. -/
def join? (base : Url) (text : String) : Option Url :=
  let cs := clean text.toList
  match splitScheme? cs with
  | some (scheme, rest) =>
    if scheme = base.scheme ∧ (rest.takeWhile (isSlash true)).length < 2 then relative? base rest
    else readScheme? scheme rest
  | none => relative? base cs

end Url

end FolioLedger.Http
