/-! The states of a connection and the events of its sessions. -/
namespace ServiceDirectory

inductive ConnectionStatus where
  | new
  | connected
  | connectedReadonly
  /-- For good. -/
  | closed
  | authFailed
  /-- For now; a new session is sought. -/
  | notConnected
  deriving DecidableEq, Inhabited

namespace ConnectionStatus

def isAlive (s : ConnectionStatus) : Bool := s != closed

def isConnected : ConnectionStatus → Bool
  | connected | connectedReadonly => true
  | _ => false

def display : ConnectionStatus → String
  | new => "NEW"
  | connected => "CONNECTED"
  | connectedReadonly => "CONNECTED_READONLY"
  | closed => "CLOSED"
  | authFailed => "AUTH_FAILED"
  | notConnected => "NOT_CONNECTED"

def all : List ConnectionStatus :=
  [new, connected, connectedReadonly, closed, authFailed, notConnected]

end ConnectionStatus

inductive SessionEvent where
  | created
  | closed
  | reopen
  deriving DecidableEq, Inhabited

namespace SessionEvent

def display : SessionEvent → String
  | created => "CREATED"
  | closed => "CLOSED"
  | reopen => "REOPEN"

def all : List SessionEvent := [created, closed, reopen]

end SessionEvent
end ServiceDirectory
