import FolioLedger.Config.Basic
import FolioLedger.Yaml.Reader

/-!
# Settings documents and the environment

Settings are read from a YAML document: numbers are plain scalars in decimal, or with a sign of
their base in another; a text is any scalar; a collection may be left out after its colon.
Variables of the environment take the place of what the document says, unless they do not denote
a value.
-/

namespace FolioLedger

namespace Yaml

/-- A number written in digits of a base. -/
def digitsIn? (base : Nat) (cs : List Char) : Option Nat :=
  if cs = [] then none else Hex.inBase? base cs

/-- A number without sign in decimal, or in another base after its sign.  A decimal number does
not start with a zero that is not needed. -/
def magnitude? : List Char → Option Nat
  | '0' :: 'x' :: cs => digitsIn? 16 cs
  | '0' :: 'o' :: cs => digitsIn? 8 cs
  | '0' :: 'b' :: cs => digitsIn? 2 cs
  | ['0'] => some 0
  | '0' :: _ => none
  | cs => digitsIn? 10 cs

/-- An unsigned number below `limit`. -/
def nat? (limit : Nat) : Yaml → Option Nat
  | .scalar true text => do
    let n ← match text.toList with
      | '+' :: cs => magnitude? cs
      | cs => magnitude? cs
    if n < limit then some n else none
  | _ => none

/-- A number that fits a signed word of 64 bits. -/
def int64? : Yaml → Option Int
  | .scalar true text =>
    match text.toList with
    | '-' :: cs => (magnitude? cs).bind fun n => if n ≤ 1 <<< 63 then some (-(n : Int)) else none
    | '+' :: cs => (magnitude? cs).bind fun n => if n < 1 <<< 63 then some (n : Int) else none
    | cs => (magnitude? cs).bind fun n => if n < 1 <<< 63 then some (n : Int) else none
  | _ => none

/-- The text of a scalar. -/
def text? : Yaml → Option String
  | .scalar _ text => some text
  | _ => none

/-- Whether a scalar says that there is no value. -/
def isNull : Yaml → Bool
  | .scalar true text => text ∈ ["", "~", "null", "Null", "NULL"]
  | _ => false

/-- A text that may be missing. -/
def optionalText? (y : Yaml) : Option (Option String) :=
  if y.isNull then some none else y.text?.map some

/-- A list of texts. -/
def texts? : Yaml → Option (List String)
  | .sequence items => items.mapM text?
  | y => if y.isAbsent then some [] else none

/-- The values of a mapping under the given names, in the order of the names; none if a key is no
scalar or a name occurs twice. -/
def fields? (names : List String) : Yaml → Option (List (Option Yaml))
  | .mapping members => do
    let keyed ← members.mapM fun (k, v) => k.text?.map fun key => (key, v)
    names.mapM fun name =>
      match keyed.filter (·.1 = name) with
      | [] => some none
      | [m] => some (some m.2)
      | _ => none
  | y => if y.isAbsent then some (names.map fun _ => none) else none

/-- A field that has a default value. -/
def withDefault {α : Type} (default : α) (read : Yaml → Option α) : Option Yaml → Option α
  | none => some default
  | some y => read y

end Yaml

/-- The settings for the authority in a document. -/
def AuthorityConfig.ofYaml? (y : Yaml) : Option AuthorityConfig := do
  let d : AuthorityConfig := {}
  match ← y.fields? ["url", "token", "timeout_secs", "max_retries"] with
  | [url, token, timeoutSecs, maxRetries] =>
    some {
      url := ← Yaml.withDefault d.url Yaml.text? url
      token := ← Yaml.withDefault d.token Yaml.optionalText? token
      timeoutSecs := ← Yaml.withDefault d.timeoutSecs (Yaml.nat? (1 <<< 64)) timeoutSecs
      maxRetries := ← Yaml.withDefault d.maxRetries (Yaml.nat? (1 <<< 32)) maxRetries }
  | _ => none

namespace EngineConfig

/-- The settings in a document; absent ones have their defaults. -/
def ofYaml? (y : Yaml) : Option EngineConfig := do
  let d : EngineConfig := {}
  let number := Yaml.nat? (1 <<< 64)
  match ← y.fields? ["database_path", "low_water_threshold", "request_quantity", "max_range_size",
      "near_expiry_days", "validity_months", "request_lock_ttl_secs", "poll_interval_secs",
      "poll_timeout_secs", "watcher_interval_secs", "authority", "trusted_keys"] with
  | [databasePath, lowWaterThreshold, requestQuantity, maxRangeSize, nearExpiryDays,
      validityMonths, requestLockTtlSecs, pollIntervalSecs, pollTimeoutSecs, watcherIntervalSecs,
      authority, trustedKeys] =>
    some {
      databasePath := ← Yaml.withDefault d.databasePath Yaml.text? databasePath
      lowWaterThreshold := ← Yaml.withDefault d.lowWaterThreshold number lowWaterThreshold
      requestQuantity := ← Yaml.withDefault d.requestQuantity number requestQuantity
      maxRangeSize := ← Yaml.withDefault d.maxRangeSize number maxRangeSize
      nearExpiryDays := ← Yaml.withDefault d.nearExpiryDays Yaml.int64? nearExpiryDays
      validityMonths := ← Yaml.withDefault d.validityMonths (Yaml.nat? (1 <<< 32)) validityMonths
      requestLockTtlSecs := ← Yaml.withDefault d.requestLockTtlSecs number requestLockTtlSecs
      pollIntervalSecs := ← Yaml.withDefault d.pollIntervalSecs number pollIntervalSecs
      pollTimeoutSecs := ← Yaml.withDefault d.pollTimeoutSecs number pollTimeoutSecs
      watcherIntervalSecs := ← Yaml.withDefault d.watcherIntervalSecs number watcherIntervalSecs
      authority := ← Yaml.withDefault d.authority AuthorityConfig.ofYaml? authority
      trustedKeys := ← Yaml.withDefault d.trustedKeys Yaml.texts? trustedKeys }
  | _ => none

/-- Reads the text of a settings document. -/
def ofText (text : String) : Except Failure EngineConfig :=
  match (Yaml.parse? text).bind ofYaml? with
  | some c => .ok c
  | none => .error (.invalidConfig .malformed)

/-! ## The environment -/

/-- A variable that denotes an unsigned number below `limit`. -/
def variableNat? (env : String → Option String) (limit : Nat) (name : String) : Option Nat :=
  (env name).bind (Numeral.parseNat? limit)

/-- The settings with the variables of the environment in their places. -/
def override (c : EngineConfig) (env : String → Option String) : EngineConfig :=
  { c with
    databasePath := (env "FOLIO_DATABASE").getD c.databasePath
    lowWaterThreshold :=
      (variableNat? env (1 <<< 64) "FOLIO_LOW_WATER_THRESHOLD").getD c.lowWaterThreshold
    requestQuantity := (variableNat? env (1 <<< 64) "FOLIO_REQUEST_QUANTITY").getD c.requestQuantity
    nearExpiryDays :=
      ((env "FOLIO_NEAR_EXPIRY_DAYS").bind Numeral.parseInt64?).getD c.nearExpiryDays
    pollIntervalSecs :=
      (variableNat? env (1 <<< 64) "FOLIO_POLL_INTERVAL_SECS").getD c.pollIntervalSecs
    authority := {
      url := (env "FOLIO_AUTHORITY_URL").getD c.authority.url
      token := (env "FOLIO_AUTHORITY_TOKEN").orElse fun _ => c.authority.token
      timeoutSecs := (variableNat? env (1 <<< 64) "FOLIO_AUTHORITY_TIMEOUT").getD
        c.authority.timeoutSecs
      maxRetries := (variableNat? env (1 <<< 32) "FOLIO_AUTHORITY_MAX_RETRIES").getD
        c.authority.maxRetries } }

end EngineConfig

end FolioLedger
