import ServiceDirectory.Cache
import ServiceDirectory.Connection.State

/-! A cache that listens to a connection: it takes in every notification, and forgets all instances
when the session is over. -/
namespace ServiceDirectory.InstanceCache

/-- Takes in what the connection tells. -/
def hear (c : InstanceCache) : Dispatch → InstanceCache
  | .notification n => (c.apply n).1
  | .session .closed _ _ => c.clear
  | _ => c

end ServiceDirectory.InstanceCache
