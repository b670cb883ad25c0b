import FolioLedger.Failure
import FolioLedger.Json.Record
import FolioLedger.Replenish.Monitor
import FolioLedger.Watch

/-!
# Settings

The settings of an engine, their defaults, and the conditions that make them usable.
-/

namespace FolioLedger

/-- How the authority is reached. -/
structure AuthorityConfig where
  url : String := "http://localhost:8080"
  token : Option String := none
  timeoutSecs : Nat := 30
  /-- How often a failed attempt is repeated. -/
  maxRetries : Nat := 3
deriving DecidableEq

/-- The settings of an engine. -/
structure EngineConfig where
  databasePath : String := "folio.db"
  /-- The stock at or below which a new range is asked for. -/
  lowWaterThreshold : Nat := 100
  /-- The folios of one request. -/
  requestQuantity : Nat := 1000
  maxRangeSize : Nat := 10000
  nearExpiryDays : Int := 15
  /-- How long an authorization is good for. -/
  validityMonths : Nat := 6
  requestLockTtlSecs : Nat := 900
  pollIntervalSecs : Nat := 300
  /-- How long the authority may leave a request open. -/
  pollTimeoutSecs : Nat := 86400
  watcherIntervalSecs : Nat := 3600
  authority : AuthorityConfig := {}
  /-- The files of the keys that are trusted. -/
  trustedKeys : List String := []
deriving DecidableEq

namespace EngineConfig

/-- The first condition that settings violate, if any. -/
def fault? (c : EngineConfig) : Option ConfigFault :=
  if c.requestQuantity = 0 then some .requestQuantityZero
  else if c.maxRangeSize = 0 then some .maxRangeSizeZero
  else if c.maxRangeSize < c.requestQuantity then
    some (.quantityAboveLimit c.requestQuantity c.maxRangeSize)
  else if c.nearExpiryDays < 0 then some .nearExpiryNegative
  else if c.validityMonths = 0 then some .validityMonthsZero
  else if c.pollIntervalSecs = 0 ∨ c.watcherIntervalSecs = 0 then some .intervalZero
  -- A poll renews its lock once a tick.
  else if c.requestLockTtlSecs ≤ c.pollIntervalSecs then
    some (.intervalNotBelowTtl c.pollIntervalSecs c.requestLockTtlSecs)
  else if c.pollTimeoutSecs < c.pollIntervalSecs then some .timeoutBelowInterval
  else none

/-- Refuses settings that cannot be used. -/
def check (c : EngineConfig) : Except Failure Unit :=
  match c.fault? with
  | some fault => .error (.invalidConfig fault)
  | none => .ok ()

/-- How ranges are asked for. -/
def monitor (c : EngineConfig) : Monitor where
  quantity := c.requestQuantity
  maxRangeSize := c.maxRangeSize
  lockTtl := c.requestLockTtlSecs * 1000
  pollTimeout := c.pollTimeoutSecs

/-- The document of settings. -/
def toJson (c : EngineConfig) : Json :=
  .record [
    ("database_path", .str c.databasePath),
    ("low_water_threshold", .nat c.lowWaterThreshold),
    ("request_quantity", .nat c.requestQuantity),
    ("max_range_size", .nat c.maxRangeSize),
    ("near_expiry_days", .int c.nearExpiryDays),
    ("validity_months", .nat c.validityMonths),
    ("request_lock_ttl_secs", .nat c.requestLockTtlSecs),
    ("poll_interval_secs", .nat c.pollIntervalSecs),
    ("poll_timeout_secs", .nat c.pollTimeoutSecs),
    ("watcher_interval_secs", .nat c.watcherIntervalSecs),
    ("authority", .record [
      ("url", .str c.authority.url),
      ("token", .optional .str c.authority.token),
      ("timeout_secs", .nat c.authority.timeoutSecs),
      ("max_retries", .nat c.authority.maxRetries)]),
    ("trusted_keys", .array (c.trustedKeys.map .str))]

end EngineConfig

/-! ## Reading from a value -/

/-- A number below `2 ^ 32`. -/
def Json.word32? (j : Json) : Option Nat :=
  (j.nat?).bind fun n => if n < 1 <<< 32 then some n else none

/-- The settings of a value for the authority; absent ones have their defaults. -/
def AuthorityConfig.ofJson? (j : Json) : Option AuthorityConfig := do
  let d : AuthorityConfig := {}
  match ← j.fields? ["url", "token", "timeout_secs", "max_retries"] with
  | [url, token, timeoutSecs, maxRetries] =>
    some {
      url := ← Json.withDefault d.url Json.text? url
      token := ← Json.lenient Json.text? token
      timeoutSecs := ← Json.withDefault d.timeoutSecs Json.nat? timeoutSecs
      maxRetries := ← Json.withDefault d.maxRetries Json.word32? maxRetries }
  | _ => none

/-- The settings of a value; absent ones have their defaults. -/
def EngineConfig.ofJson? (j : Json) : Option EngineConfig := do
  let d : EngineConfig := {}
  match ← j.fields? ["database_path", "low_water_threshold", "request_quantity", "max_range_size",
      "near_expiry_days", "validity_months", "request_lock_ttl_secs", "poll_interval_secs",
      "poll_timeout_secs", "watcher_interval_secs", "authority", "trusted_keys"] with
  | [databasePath, lowWaterThreshold, requestQuantity, maxRangeSize, nearExpiryDays,
      validityMonths, requestLockTtlSecs, pollIntervalSecs, pollTimeoutSecs, watcherIntervalSecs,
      authority, trustedKeys] =>
    some {
      databasePath := ← Json.withDefault d.databasePath Json.text? databasePath
      lowWaterThreshold := ← Json.withDefault d.lowWaterThreshold Json.nat? lowWaterThreshold
      requestQuantity := ← Json.withDefault d.requestQuantity Json.nat? requestQuantity
      maxRangeSize := ← Json.withDefault d.maxRangeSize Json.nat? maxRangeSize
      nearExpiryDays := ← Json.withDefault d.nearExpiryDays Json.int64? nearExpiryDays
      validityMonths := ← Json.withDefault d.validityMonths Json.word32? validityMonths
      requestLockTtlSecs := ← Json.withDefault d.requestLockTtlSecs Json.nat? requestLockTtlSecs
      pollIntervalSecs := ← Json.withDefault d.pollIntervalSecs Json.nat? pollIntervalSecs
      pollTimeoutSecs := ← Json.withDefault d.pollTimeoutSecs Json.nat? pollTimeoutSecs
      watcherIntervalSecs := ←
        Json.withDefault d.watcherIntervalSecs Json.nat? watcherIntervalSecs
      authority := ← Json.withDefault d.authority AuthorityConfig.ofJson? authority
      trustedKeys := ← Json.withDefault d.trustedKeys
        (fun j => j.items?.bind fun items => items.mapM Json.text?) trustedKeys }
  | _ => none

end FolioLedger
