import ServiceDirectory.Connection.State

/-! The dispatcher: it takes what was published, in the same order, and passes it on to the
listeners and callbacks. One that breaks off does not keep it from the next. -/
namespace ServiceDirectory.Connection

/-- Records the stages that a packet went through, and how it ended. -/
def measure (r : LatencyRegistry) (s : Stamps) (success : Bool) : LatencyRegistry :=
  let note (r : LatencyRegistry) (stage : PacketStage) : Option Nat → Option Nat → LatencyRegistry
    | some a, some b => r.record stage (b - a)
    | _, _ => r
  let r := note r .queue s.queued s.sent
  let r := note r .roundTrip s.sent s.received
  let r := note r .dispatch s.finished s.callbackInvoked
  let r := note r .total (some s.created) s.callbackInvoked
  r.recordOutcome success

/-- Runs the callback of a packet. Its place among the outstanding ones is free before that; the
callback is stamped when it comes back. -/
def invoke (c : Connection) (k : Completion) : Connection :=
  let c := { c with outstanding := c.outstanding - 1 }
  match c.packets[k.packet]? with
  | none => c
  | some p =>
    let p := if p.callback = .breaksOff then p else p.markInvoked c.now
    let success := match k.result with
      | .ok _ => true
      | .error _ => false
    { c with
      packets := c.packets.set k.packet p
      latency := c.latency.map (measure · p.stamps success) }

/-- The listeners that are told something, in the order of their registration. -/
def audience (c : Connection) (d : Dispatch) : List ListenerId :=
  (c.listeners.filter fun l => some l.topic == d.topic?).map (·.id)

/-- Passes on what was published first. -/
def deliver (c : Connection) : Option Connection :=
  match c.dispatches with
  | [] => none
  | d :: dispatches =>
    let c := { c with dispatches }.record (.delivered d (c.audience d))
    match d with
    | .completion k => some (c.invoke k)
    | _ => some c

end ServiceDirectory.Connection
