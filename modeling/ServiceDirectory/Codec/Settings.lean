import ServiceDirectory.Codec.Frames
import ServiceDirectory.Settings

/-! The JSON forms of settings. Every field may be left out for its default. -/
namespace ServiceDirectory

open Json

/-- A count of anything. -/
def countOfJson? (j : Json) : Option Nat := j.natural? RetryPolicy.maxCount

namespace RetryPolicy

def fields : List String :=
  ["max_retries", "initial_backoff_ms", "max_backoff_ms", "backoff_multiplier"]

def toJson (p : RetryPolicy) : Json :=
  record [("max_retries", natural p.maxRetries),
    ("initial_backoff_ms", natural p.initialBackoffMs.toNat),
    ("max_backoff_ms", natural p.maxBackoffMs.toNat),
    ("backoff_multiplier", .number (.real p.backoffMultiplier))]

def ofJson? (j : Json) : Option RetryPolicy := do
  let r ← Record.ofJson? fields j
  let d : RetryPolicy := {}
  return {
    maxRetries := ← r.defaulted? "max_retries" d.maxRetries countOfJson?
    initialBackoffMs := ← r.defaulted? "initial_backoff_ms" d.initialBackoffMs uint64?
    maxBackoffMs := ← r.defaulted? "max_backoff_ms" d.maxBackoffMs uint64?
    backoffMultiplier := ← r.defaulted? "backoff_multiplier" d.backoffMultiplier real? }

end RetryPolicy

namespace Settings

def fields : List String :=
  ["connect_timeout_ms", "read_timeout_ms", "session_timeout_ms", "ping_interval_ms",
    "max_outstanding_packets", "latency_collection", "credentials", "read_only_allowed", "retry"]

def toJson (s : Settings) : Json :=
  record [("connect_timeout_ms", natural s.connectTimeoutMs.toNat),
    ("read_timeout_ms", natural s.readTimeoutMs.toNat),
    ("session_timeout_ms", natural s.sessionTimeoutMs.toNat),
    ("ping_interval_ms", optional (fun ms => natural ms.toNat) s.pingIntervalMs),
    ("max_outstanding_packets", natural s.maxOutstanding),
    ("latency_collection", .bool s.collectsLatency),
    ("credentials", optional Credentials.toJson s.credentials),
    ("read_only_allowed", .bool s.readOnlyAllowed), ("retry", s.retry.toJson)]

def ofJson? (j : Json) : Option Settings := do
  let r ← Record.ofJson? fields j
  let d : Settings := {}
  return {
    connectTimeoutMs := ← r.defaulted? "connect_timeout_ms" d.connectTimeoutMs uint64?
    readTimeoutMs := ← r.defaulted? "read_timeout_ms" d.readTimeoutMs uint64?
    sessionTimeoutMs := ← r.defaulted? "session_timeout_ms" d.sessionTimeoutMs uint64?
    pingIntervalMs := ← r.defaulted? "ping_interval_ms" none (Json.optional? uint64?)
    maxOutstanding := ← r.defaulted? "max_outstanding_packets" d.maxOutstanding countOfJson?
    collectsLatency := ← r.defaulted? "latency_collection" false bool?
    credentials := ← r.defaulted? "credentials" none (Json.optional? Credentials.ofJson?)
    readOnlyAllowed := ← r.defaulted? "read_only_allowed" false bool?
    retry := ← r.defaulted? "retry" {} RetryPolicy.ofJson? }

end Settings
end ServiceDirectory
