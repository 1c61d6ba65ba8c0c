import ServiceDirectory.Endpoint.Basic
import ServiceDirectory.ErrorCode

/-! The ways in which an operation of the client fails, their messages, and their form on the
wire. -/
namespace ServiceDirectory

/-- The kinds of failure of a byte stream that are told apart. -/
inductive StreamFault.Kind where
  | unexpectedEof
  | connectionReset
  | connectionAborted
  | brokenPipe
  | notConnected
  | other
  deriving DecidableEq, Inhabited

/-- A failure of a byte stream. -/
structure StreamFault where
  kind : StreamFault.Kind
  text : String
  deriving DecidableEq, Inhabited

/-- Whether the fault means that the peer went away. -/
def StreamFault.isLoss (f : StreamFault) : Bool := f.kind != .other

inductive Failure where
  | connectTimeout (endpoint : Endpoint) (ms : UInt64)
  | readTimeout (ms : UInt64)
  | sessionExpired
  | authFailed (endpoint : Endpoint) (reason : String)
  | backlogFull (limit : Nat)
  | connectionLoss (detail : String)
  | connectionClosed
  | emptyCandidates (service : String)
  | protocol (detail : String)
  | invalidEndpoint (text : String)
  | emptyRoster
  | server (error : ServiceError)
  | malformed (detail : String)
  | stream (fault : StreamFault)
  deriving DecidableEq, Inhabited

namespace Failure

def message : Failure → String
  | connectTimeout e ms =>
    "Connect to " ++ e.display ++ " timed out after " ++ Decimal.string ms.toNat ++ "ms"
  | readTimeout ms => "No data received within " ++ Decimal.string ms.toNat ++ "ms"
  | sessionExpired => "Session expired"
  | authFailed e reason => "Authentication failed on " ++ e.display ++ ": " ++ reason
  | backlogFull limit => "Outstanding packet limit of " ++ Decimal.string limit ++ " reached"
  | connectionLoss detail => "Connection lost: " ++ detail
  | connectionClosed => "Connection closed"
  | emptyCandidates service => "No candidate instances for service " ++ service
  | protocol detail => "Protocol error: " ++ detail
  | invalidEndpoint text => "Invalid endpoint: " ++ text
  | emptyRoster => "Server roster is empty"
  | server error => error.message
  | malformed detail => "JSON serialization error: " ++ detail
  | stream fault => "IO error: " ++ fault.text

def code : Failure → ErrorCode
  | connectTimeout _ _ => .named .connectTimeout
  | readTimeout _ => .named .readTimeout
  | sessionExpired => .named .sessionExpired
  | authFailed _ _ => .named .authenticationFailed
  | backlogFull _ => .named .requestBacklogFull
  | connectionLoss _ => .named .connectionLoss
  | connectionClosed => .named .connectionClosed
  | emptyCandidates _ => .named .noAvailableInstance
  | protocol _ => .named .protocolError
  | invalidEndpoint _ => .named .invalidServerList
  | emptyRoster => .named .invalidServerList
  | server error => error.code
  | malformed _ => .named .protocolError
  | stream _ => .named .connectionLoss

/-- The parameters of the message on the wire. -/
def params : Failure → List String
  | connectTimeout e ms => [e.display, Decimal.string ms.toNat]
  | readTimeout ms => [Decimal.string ms.toNat]
  | sessionExpired => []
  | authFailed e reason => [e.display, reason]
  | backlogFull limit => [Decimal.string limit]
  | connectionLoss detail => [detail]
  | connectionClosed => []
  | emptyCandidates service => [service]
  | protocol detail => [detail]
  | invalidEndpoint text => [text]
  | emptyRoster => ["no endpoints configured"]
  | server error => error.params
  | malformed detail => [detail]
  | stream fault => [fault.text]

/-- The failure as it goes over the wire. -/
def toServiceError (f : Failure) : ServiceError := ⟨f.code, f.params⟩

theorem toServiceError_server (e : ServiceError) : (server e).toServiceError = e := rfl

/-- Whether a server turned down the credentials. -/
def isAuth : Failure → Bool
  | authFailed _ _ => true
  | _ => false

end Failure
end ServiceDirectory
