import ServiceDirectory.Frame
import ServiceDirectory.Text.Quoted

/-! Descriptions of frames, for the message about a frame that does not belong in a handshake. A
record shows its name and its fields, an alternative its name and what it holds. -/
namespace ServiceDirectory

namespace Description

def commaSeparated (parts : List String) : String := ", ".intercalate parts

/-- A record with its fields. -/
def fields (name : String) (fs : List (String × String)) : String :=
  name ++ " \x7b " ++ commaSeparated (fs.map fun f => f.1 ++ ": " ++ f.2) ++ " \x7d"

def holding (name content : String) : String := name ++ "(" ++ content ++ ")"

def option {α : Type} (f : α → String) : Option α → String
  | none => "None"
  | some a => holding "Some" (f a)

def list (parts : List String) : String := "[" ++ commaSeparated parts ++ "]"

def mapping (entries : List (String × String)) : String :=
  "\x7b" ++ commaSeparated (entries.map fun e => e.1 ++ ": " ++ e.2) ++ "\x7d"

def number (n : Nat) : String := Decimal.string n

def boolean (b : Bool) : String := if b then "true" else "false"

end Description

open Description Text

def OpCode.description : OpCode → String
  | registerInstance => "RegisterInstance"
  | unregisterInstance => "UnregisterInstance"
  | updateOperationalStatus => "UpdateOperationalStatus"
  | updateMetadata => "UpdateMetadata"
  | lookupService => "LookupService"
  | lookupInstance => "LookupInstance"
  | getAllServices => "GetAllServices"
  | watchService => "WatchService"

def ServiceError.description (e : ServiceError) : String :=
  fields "ServiceDirectoryError" [("code", e.code.name), ("params", list (e.params.map quoted))]

def OperationalStatus.description : OperationalStatus → String
  | up => "Up"
  | down => "Down"

def ServiceInstance.description (i : ServiceInstance) : String :=
  fields "ServiceInstance" [("service_name", quoted i.serviceName),
    ("provider_id", quoted i.providerId), ("provider_address", quoted i.providerAddress),
    ("uri", quoted i.uri), ("status", i.status.description),
    ("metadata", mapping (i.metadata.entries.map fun e => (quoted e.1, quoted e.2))),
    ("last_heartbeat_ms", option (fun ms => number ms.toNat) i.lastHeartbeatMs)]

def Notification.description : Notification → String
  | registered i => fields "Registered" [("instance", i.description)]
  | updated i => fields "Updated" [("instance", i.description)]
  | unregistered s p =>
    fields "Unregistered" [("service_name", quoted s), ("provider_id", quoted p)]
  | heartbeat s p status ms =>
    fields "Heartbeat" [("service_name", quoted s), ("provider_id", quoted p),
      ("status", status.description), ("timestamp_ms", number ms.toNat)]

def ConnectResponse.description (r : ConnectResponse) : String :=
  fields "ConnectResponse" [("session_id", number r.sessionId.toNat),
    ("session_timeout_ms", number r.sessionTimeoutMs.toNat), ("read_only", boolean r.readOnly)]

def ResponseFrame.description (r : ResponseFrame) : String :=
  fields "ResponseFrame" [("xid", number r.xid.toNat),
    ("error", option ServiceError.description r.error), ("payload", quotedBytes r.payload)]

def ServerFrame.description : ServerFrame → String
  | connected r => holding "Connected" r.description
  | authFailed reason => fields "AuthFailed" [("reason", quoted reason)]
  | response r => holding "Response" r.description
  | pong => "Pong"
  | notification n => holding "Notification" n.description
  | sessionExpired => "SessionExpired"

end ServiceDirectory
