import ServiceDirectory.ErrorCode
import ServiceDirectory.Instance

/-! Frames, the messages of a session. Requests and responses carry bytes that nothing here looks
into. -/
namespace ServiceDirectory

/-- The number that pairs a response with its request. -/
abbrev Xid := UInt32

/-- The number that a server gives a session. -/
abbrev SessionId := UInt64

/-- The revision of the protocol that is spoken here. -/
def protocolVersion : UInt32 := 2

/-- What a request asks of the directory. -/
inductive OpCode where
  | registerInstance
  | unregisterInstance
  | updateOperationalStatus
  | updateMetadata
  | lookupService
  | lookupInstance
  | getAllServices
  | watchService
  deriving DecidableEq, Inhabited

structure Credentials where
  user : String
  secret : String
  deriving DecidableEq, Inhabited

/-- The first frame on a new link. -/
structure ConnectRequest where
  protocolVersion : UInt32
  /-- The session to take up again. -/
  sessionId : Option SessionId
  sessionTimeoutMs : UInt64
  credentials : Option Credentials
  readOnlyAllowed : Bool := false
  deriving DecidableEq, Inhabited

structure ConnectResponse where
  sessionId : SessionId
  /-- The session timeout that holds, or zero for the one asked for. -/
  sessionTimeoutMs : UInt64
  readOnly : Bool := false
  deriving DecidableEq, Inhabited

structure RequestFrame where
  xid : Xid
  op : OpCode
  payload : ByteArray
  deriving Inhabited

structure ResponseFrame where
  xid : Xid
  error : Option ServiceError := none
  payload : ByteArray := .empty
  deriving Inhabited

/-- Frames from the client. -/
inductive ClientFrame where
  | connect (r : ConnectRequest)
  | request (r : RequestFrame)
  | ping
  | close
  deriving Inhabited

/-- Frames from the server. -/
inductive ServerFrame where
  | connected (r : ConnectResponse)
  | authFailed (reason : String)
  | response (r : ResponseFrame)
  | pong
  | notification (n : Notification)
  | sessionExpired
  deriving Inhabited

end ServiceDirectory
