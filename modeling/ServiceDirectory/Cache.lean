import ServiceDirectory.Balancer
import ServiceDirectory.Identity

/-! The instance cache: what is known about the instances of each service, fed by notifications
and by whole lists. Handlers of a service are called when an instance becomes available or
unavailable, or changes otherwise. A heartbeat or a removal finds its instance by the id as it
came, or else by the address, if only one instance has it. -/
namespace ServiceDirectory

/-- What a handler is told about an instance. -/
inductive Change where
  | available (i : ServiceInstance)
  | unavailable (i : ServiceInstance)
  /-- The address or the metadata differs, whether or not the availability does. -/
  | changed (i : ServiceInstance)
  deriving DecidableEq

/-- A call of the handler `handler`. -/
structure HandlerCall where
  handler : String
  change : Change
  deriving DecidableEq

/-- The instances of each service, and the labels of its handlers in the order of their
registration. -/
structure InstanceCache where
  services : Dictionary (List ServiceInstance) := .empty
  handlers : Dictionary (List String) := .empty
  deriving DecidableEq, Inhabited

namespace InstanceCache

/-- Replaces the address by the one that the id leads to. -/
def normalized (i : ServiceInstance) : ServiceInstance :=
  { i with providerAddress := (ProviderIdentity.ofName i.providerId).address }

/-- The position of the instance that an identity means. -/
def find? (list : List ServiceInstance) (identity : ProviderIdentity) : Option Nat :=
  match list.findIdx? (·.providerId == identity.id) with
  | some n => some n
  | none =>
    if list.countP (·.providerAddress == identity.address) = 1 then
      list.findIdx? (·.providerAddress == identity.address)
    else none

/-- The changes to report when `old` becomes `new`. -/
def changesBetween (old new : ServiceInstance) : List Change :=
  (match old.isUp, new.isUp with
    | true, false => [.unavailable new]
    | false, true => [.available new]
    | _, _ => []) ++
  if old.uri ≠ new.uri ∨ old.metadata ≠ new.metadata then [.changed new] else []

/-- Takes over the time of the last heartbeat where there is no newer one. -/
def inherit (old new : ServiceInstance) : ServiceInstance :=
  { new with lastHeartbeatMs := new.lastHeartbeatMs.or old.lastHeartbeatMs }

/-- Puts an instance in the place of the one with its id, or at the end. -/
def upsert (list : List ServiceInstance) (i : ServiceInstance) :
    List ServiceInstance × List Change :=
  match list with
  | [] => ([i], if i.isUp then [.available i] else [])
  | old :: rest =>
    if old.providerId = i.providerId then
      (inherit old i :: rest, changesBetween old (inherit old i))
    else
      let (rest, changes) := upsert rest i
      (old :: rest, changes)

/-- Takes an instance out. -/
def remove (list : List ServiceInstance) (identity : ProviderIdentity) :
    List ServiceInstance × List Change :=
  match find? list identity with
  | none => (list, [])
  | some n =>
    (list.eraseIdx n,
      match list[n]? with
      | some i => if i.isUp then [.unavailable i] else []
      | none => [])

/-- Takes a heartbeat into account. -/
def beat (list : List ServiceInstance) (identity : ProviderIdentity) (status : OperationalStatus)
    (timestampMs : UInt64) : List ServiceInstance × List Change :=
  match find? list identity with
  | none => (list, [])
  | some n =>
    match list[n]? with
    | none => (list, [])
    | some old =>
      let new := { old with lastHeartbeatMs := some timestampMs, status }
      (list.set n new,
        if old.status = status then []
        else if status.isUp then [.available new] else [.unavailable new])

/-- Makes the instances of a list the only ones; those whose id stays keep their places. -/
def replaceAll (list : List ServiceInstance) (instances : List ServiceInstance) :
    List ServiceInstance × List Change :=
  let stays (old : ServiceInstance) : Bool := instances.any (·.providerId == old.providerId)
  let gone := (list.filter fun old => !stays old && old.isUp).map Change.unavailable
  instances.foldl
    (fun (list, changes) i =>
      let (list, more) := upsert list (normalized i)
      (list, changes ++ more))
    (list.filter stays, gone)

/-- The known instances of a service. -/
def instances (c : InstanceCache) (service : String) : List ServiceInstance :=
  (c.services.get? service).getD []

/-- The instances of a service that are up. -/
def candidates (c : InstanceCache) (service : String) : List ServiceInstance :=
  (c.instances service).filter (·.isUp)

/-- The names of all known services, in rising order. -/
def serviceNames (c : InstanceCache) : List String := c.services.keys

/-- The calls for a row of changes of a service: each change goes to all handlers in turn. -/
def calls (c : InstanceCache) (service : String) (changes : List Change) : List HandlerCall :=
  changes.flatMap fun change => ((c.handlers.get? service).getD []).map (⟨·, change⟩)

def addHandler (c : InstanceCache) (service label : String) : InstanceCache :=
  { c with handlers := c.handlers.insert service ((c.handlers.get? service).getD [] ++ [label]) }

def removeHandlers (c : InstanceCache) (service : String) : InstanceCache :=
  { c with handlers := c.handlers.erase service }

/-- Forgets all instances and keeps the handlers. -/
def clear (c : InstanceCache) : InstanceCache := { c with services := .empty }

/-- Sets the list of a service and makes the calls for the changes. -/
def store (c : InstanceCache) (service : String) (update : List ServiceInstance × List Change) :
    InstanceCache × List HandlerCall :=
  ({ c with services := c.services.insert service update.1 }, c.calls service update.2)

/-- Changes the list of a service that is known already. -/
def amend (c : InstanceCache) (service : String)
    (f : List ServiceInstance → List ServiceInstance × List Change) :
    InstanceCache × List HandlerCall :=
  match c.services.get? service with
  | some list => c.store service (f list)
  | none => (c, [])

/-- Takes a notification into account. -/
def apply (c : InstanceCache) : Notification → InstanceCache × List HandlerCall
  | .registered i => c.store i.serviceName (upsert (c.instances i.serviceName) (normalized i))
  | .updated i => c.store i.serviceName (upsert (c.instances i.serviceName) (normalized i))
  | .unregistered service id =>
    c.amend service fun list => remove list (ProviderIdentity.ofName id)
  | .heartbeat service id status timestampMs =>
    c.amend service fun list => beat list (ProviderIdentity.ofName id) status timestampMs

/-- Replaces the list of a service. -/
def updateService (c : InstanceCache) (service : String) (list : List ServiceInstance) :
    InstanceCache × List HandlerCall :=
  c.store service (replaceAll (c.instances service) list)

/-- Picks one instance of a service that is up. -/
def lookup (c : InstanceCache) (service : String) (balancer : RoundRobin) :
    Except Failure ServiceInstance × RoundRobin :=
  balancer.vote service (c.candidates service)

def lookupHealthy (c : InstanceCache) (service : String) (balancer : RoundRobin) :
    Except Failure ServiceInstance × RoundRobin :=
  balancer.voteHealthy service (c.candidates service)

end InstanceCache
end ServiceDirectory
