import ServiceDirectory.Codec.Errors
import ServiceDirectory.Codec.Instances
import ServiceDirectory.Frame

/-! The JSON forms of frames. The member `type` tells the frames apart. -/
namespace ServiceDirectory

open Json

namespace OpCode

def names : List (String × OpCode) :=
  [("register_instance", registerInstance), ("unregister_instance", unregisterInstance),
    ("update_operational_status", updateOperationalStatus), ("update_metadata", updateMetadata),
    ("lookup_service", lookupService), ("lookup_instance", lookupInstance),
    ("get_all_services", getAllServices), ("watch_service", watchService)]

def wireName : OpCode → String
  | registerInstance => "register_instance"
  | unregisterInstance => "unregister_instance"
  | updateOperationalStatus => "update_operational_status"
  | updateMetadata => "update_metadata"
  | lookupService => "lookup_service"
  | lookupInstance => "lookup_instance"
  | getAllServices => "get_all_services"
  | watchService => "watch_service"

def toJson (op : OpCode) : Json := text op.wireName

def ofJson? (kept : Bool) (j : Json) : Option OpCode := choice? kept names j

theorem lookup_wireName (op : OpCode) : names.lookup op.wireName = some op := by
  cases op <;> decide

end OpCode

/-- Bytes are written as an array of numbers. -/
def payloadToJson (b : ByteArray) : Json := .array (b.data.toList.map fun x => natural x.toNat)

/-- Bytes are read from an array of numbers or from the bytes of a string. -/
def payloadOfJson? : Json → Option ByteArray
  | .string s => some s.bytes.toByteArray
  | .array items => do return (← items.mapM uint8?).toByteArray
  | _ => none

namespace Credentials

def toJson (c : Credentials) : Json := record [("user", text c.user), ("secret", text c.secret)]

def ofJson? (j : Json) : Option Credentials := do
  let r ← Record.ofJson? ["user", "secret"] j
  return ⟨← r.required? "user" text?, ← r.required? "secret" text?⟩

end Credentials

namespace ConnectRequest

def fields : List String :=
  ["protocol_version", "session_id", "session_timeout_ms", "credentials", "read_only_allowed"]

def members (r : ConnectRequest) : List (String × Json) :=
  [("protocol_version", natural r.protocolVersion.toNat),
    ("session_id", optional (fun id => natural id.toNat) r.sessionId),
    ("session_timeout_ms", natural r.sessionTimeoutMs.toNat),
    ("credentials", optional Credentials.toJson r.credentials),
    ("read_only_allowed", .bool r.readOnlyAllowed)]

def toJson (r : ConnectRequest) : Json := record r.members

def ofJson? (j : Json) : Option ConnectRequest := do
  let r ← Record.ofJson? fields j
  return {
    protocolVersion := ← r.required? "protocol_version" uint32?
    sessionId := ← r.optional? "session_id" uint64?
    sessionTimeoutMs := ← r.required? "session_timeout_ms" uint64?
    credentials := ← r.optional? "credentials" Credentials.ofJson?
    readOnlyAllowed := ← r.defaulted? "read_only_allowed" false bool? }

end ConnectRequest

namespace ConnectResponse

def members (r : ConnectResponse) : List (String × Json) :=
  [("session_id", natural r.sessionId.toNat),
    ("session_timeout_ms", natural r.sessionTimeoutMs.toNat), ("read_only", .bool r.readOnly)]

def toJson (r : ConnectResponse) : Json := record r.members

def ofJson? (j : Json) : Option ConnectResponse := do
  let r ← Record.ofJson? ["session_id", "session_timeout_ms", "read_only"] j
  return ⟨← r.required? "session_id" uint64?, ← r.required? "session_timeout_ms" uint64?,
    ← r.defaulted? "read_only" false bool?⟩

end ConnectResponse

namespace RequestFrame

def members (r : RequestFrame) : List (String × Json) :=
  [("xid", natural r.xid.toNat), ("op", r.op.toJson), ("payload", payloadToJson r.payload)]

def toJson (r : RequestFrame) : Json := record r.members

def ofJson? (kept : Bool) (j : Json) : Option RequestFrame := do
  let r ← Record.ofJson? ["xid", "op", "payload"] j
  return ⟨← r.required? "xid" uint32?, ← r.required? "op" (OpCode.ofJson? kept),
    ← r.required? "payload" payloadOfJson?⟩

end RequestFrame

namespace ResponseFrame

def members (r : ResponseFrame) : List (String × Json) :=
  [("xid", natural r.xid.toNat), ("error", optional ServiceError.toJson r.error),
    ("payload", payloadToJson r.payload)]

def toJson (r : ResponseFrame) : Json := record r.members

def ofJson? (j : Json) : Option ResponseFrame := do
  let r ← Record.ofJson? ["xid", "error", "payload"] j
  return ⟨← r.required? "xid" uint32?,
    ← r.defaulted? "error" none (Json.optional? ServiceError.ofJson?),
    ← r.defaulted? "payload" .empty payloadOfJson?⟩

end ResponseFrame

namespace ClientFrame

inductive Kind where
  | connect | request | ping | close
  deriving DecidableEq

def kinds : List (String × Kind) :=
  [("connect", .connect), ("request", .request), ("ping", .ping), ("close", .close)]

def toJson : ClientFrame → Json
  | connect r => record (("type", text "connect") :: r.members)
  | request r => record (("type", text "request") :: r.members)
  | ping => record [("type", text "ping")]
  | close => record [("type", text "close")]

def ofJson? (j : Json) : Option ClientFrame := do
  guard j.keepable
  let t ← Tagged.ofJson? "type" j
  match ← t.choice? false kinds with
  | .connect => do return connect (← ConnectRequest.ofJson? t.rest)
  | .request => do return request (← RequestFrame.ofJson? true t.rest)
  | .ping => if t.isBare then some ping else none
  | .close => if t.isBare then some close else none

end ClientFrame

namespace ServerFrame

inductive Kind where
  | connected | authFailed | response | pong | notification | sessionExpired
  deriving DecidableEq

def kinds : List (String × Kind) :=
  [("connected", .connected), ("auth_failed", .authFailed), ("response", .response),
    ("pong", .pong), ("notification", .notification), ("session_expired", .sessionExpired)]

def toJsonIn (list : Listing) : ServerFrame → Json
  | connected r => record (("type", text "connected") :: r.members)
  | authFailed reason => record [("type", text "auth_failed"), ("reason", text reason)]
  | response r => record (("type", text "response") :: r.members)
  | pong => record [("type", text "pong")]
  | notification n => record (("type", text "notification") :: n.members list)
  | sessionExpired => record [("type", text "session_expired")]

/-- The form with the metadata in the order of its keys. -/
def toJson (f : ServerFrame) : Json := f.toJsonIn Dictionary.entries

def ofJson? (j : Json) : Option ServerFrame := do
  guard j.keepable
  let t ← Tagged.ofJson? "type" j
  match ← t.choice? false kinds with
  | .connected => do return connected (← ConnectResponse.ofJson? t.rest)
  | .authFailed => do
    let r ← Record.ofJson? ["reason"] t.rest
    return authFailed (← r.required? "reason" text?)
  | .response => do return response (← ResponseFrame.ofJson? t.rest)
  | .pong => if t.isBare then some pong else none
  | .notification => do return notification (← Notification.ofKept? true t.rest)
  | .sessionExpired => if t.isBare then some sessionExpired else none

end ServerFrame
end ServiceDirectory
