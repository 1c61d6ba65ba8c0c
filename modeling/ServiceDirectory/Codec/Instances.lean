import ServiceDirectory.Instance
import ServiceDirectory.Json.Record

/-! The JSON forms of instances and notifications. The readers take `kept`, which says that the
value comes out of a tagged choice and was kept for a later look. -/
namespace ServiceDirectory

open Json

namespace OperationalStatus

def names : List (String × OperationalStatus) := [("UP", up), ("DOWN", down)]

def toJson (s : OperationalStatus) : Json := text s.display

def ofJson? (kept : Bool) (j : Json) : Option OperationalStatus := choice? kept names j

end OperationalStatus

/-- Metadata is an object of strings; the last value of a key holds. -/
def metadataOfJson? : Json → Option (Dictionary String)
  | .object members => do
    return .ofList (← members.mapM fun (k, j) => do return (← k.text?, ← j.text?))
  | _ => none

/-- How the entries of metadata are listed. A hash table has an order of its own for them, which
is not theirs. -/
abbrev Listing := Dictionary String → List (String × String)

def metadataToJson (list : Listing) (d : Dictionary String) : Json :=
  record ((list d).map fun e => (e.1, text e.2))

namespace ServiceInstance

def fields : List String :=
  ["service_name", "provider_id", "provider_address", "uri", "status", "metadata",
    "last_heartbeat_ms"]

def toJsonIn (list : Listing) (i : ServiceInstance) : Json :=
  record [("service_name", text i.serviceName), ("provider_id", text i.providerId),
    ("provider_address", text i.providerAddress), ("uri", text i.uri),
    ("status", i.status.toJson), ("metadata", metadataToJson list i.metadata),
    ("last_heartbeat_ms", optional (fun ms => natural ms.toNat) i.lastHeartbeatMs)]

/-- The form with the metadata in the order of its keys. -/
def toJson (i : ServiceInstance) : Json := i.toJsonIn Dictionary.entries

def ofJson? (kept : Bool) (j : Json) : Option ServiceInstance := do
  let r ← Record.ofJson? fields j
  return {
    serviceName := ← r.required? "service_name" text?
    providerId := ← r.required? "provider_id" text?
    providerAddress := ← r.required? "provider_address" text?
    uri := ← r.required? "uri" text?
    status := ← r.required? "status" (OperationalStatus.ofJson? kept)
    metadata := ← r.defaulted? "metadata" .empty metadataOfJson?
    lastHeartbeatMs := ← r.defaulted? "last_heartbeat_ms" none (Json.optional? uint64?) }

end ServiceInstance

namespace Notification

inductive Kind where
  | registered | updated | unregistered | heartbeat
  deriving DecidableEq

def kinds : List (String × Kind) :=
  [("registered", .registered), ("updated", .updated), ("unregistered", .unregistered),
    ("heartbeat", .heartbeat)]

/-- The tag and the fields of a notification. -/
def members (list : Listing) : Notification → List (String × Json)
  | registered i => [("kind", text "registered"), ("instance", i.toJsonIn list)]
  | updated i => [("kind", text "updated"), ("instance", i.toJsonIn list)]
  | unregistered s p =>
    [("kind", text "unregistered"), ("service_name", text s), ("provider_id", text p)]
  | heartbeat s p status ms =>
    [("kind", text "heartbeat"), ("service_name", text s), ("provider_id", text p),
      ("status", status.toJson), ("timestamp_ms", natural ms.toNat)]

def toJson (n : Notification) : Json := record (n.members Dictionary.entries)

/-- Reads a notification out of a value that was kept; `inner` says that it stands inside
another tagged choice. -/
def ofKept? (inner : Bool) (j : Json) : Option Notification := do
  let t ← Tagged.ofJson? "kind" j
  match ← t.choice? inner kinds with
  | .registered => do
    let r ← Record.ofJson? ["instance"] t.rest
    return registered (← r.required? "instance" (ServiceInstance.ofJson? true))
  | .updated => do
    let r ← Record.ofJson? ["instance"] t.rest
    return updated (← r.required? "instance" (ServiceInstance.ofJson? true))
  | .unregistered => do
    let r ← Record.ofJson? ["service_name", "provider_id"] t.rest
    return unregistered (← r.required? "service_name" text?) (← r.required? "provider_id" text?)
  | .heartbeat => do
    let r ← Record.ofJson? ["service_name", "provider_id", "status", "timestamp_ms"] t.rest
    return heartbeat (← r.required? "service_name" text?) (← r.required? "provider_id" text?)
      (← r.required? "status" (OperationalStatus.ofJson? true))
      (← r.required? "timestamp_ms" uint64?)

def ofJson? (j : Json) : Option Notification :=
  if j.keepable then ofKept? false j else none

end Notification
end ServiceDirectory
