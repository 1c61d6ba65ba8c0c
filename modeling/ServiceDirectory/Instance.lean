import ServiceDirectory.Dictionary

/-! Instances of services, and the notifications by which a server reports how they change. -/
namespace ServiceDirectory

inductive OperationalStatus where
  | up
  | down
  deriving DecidableEq, Inhabited

namespace OperationalStatus

def isUp (s : OperationalStatus) : Bool := s == up

@[simp] theorem isUp_up : up.isUp = true := rfl

@[simp] theorem isUp_down : down.isUp = false := rfl

def display : OperationalStatus → String
  | up => "UP"
  | down => "DOWN"

end OperationalStatus

/-- One provider of a service. The address is the bare one; the id is the address or, for
providers of the older form, the address with its port. -/
structure ServiceInstance where
  serviceName : String
  providerId : String
  providerAddress : String
  uri : String
  status : OperationalStatus
  metadata : Dictionary String := .empty
  /-- Milliseconds, since the start of 1970, of the last heartbeat seen. -/
  lastHeartbeatMs : Option UInt64 := none
  deriving DecidableEq, Inhabited

namespace ServiceInstance

/-- A provider that is up and whose id is its address. -/
def new (serviceName address uri : String) : ServiceInstance :=
  { serviceName, providerId := address, providerAddress := address, uri, status := .up }

def withProviderId (i : ServiceInstance) (id : String) : ServiceInstance :=
  { i with providerId := id }

def withStatus (i : ServiceInstance) (s : OperationalStatus) : ServiceInstance :=
  { i with status := s }

def withMetadata (i : ServiceInstance) (key value : String) : ServiceInstance :=
  { i with metadata := i.metadata.insert key value }

def isUp (i : ServiceInstance) : Bool := i.status.isUp

end ServiceInstance

inductive Notification where
  | registered (i : ServiceInstance)
  | updated (i : ServiceInstance)
  | unregistered (serviceName providerId : String)
  | heartbeat (serviceName providerId : String) (status : OperationalStatus) (timestampMs : UInt64)
  deriving DecidableEq, Inhabited

/-- The service that a notification is about. -/
def Notification.serviceName : Notification → String
  | registered i => i.serviceName
  | updated i => i.serviceName
  | unregistered s _ => s
  | heartbeat s _ _ _ => s

end ServiceDirectory
