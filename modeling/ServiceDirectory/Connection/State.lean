import ServiceDirectory.Connection.Packet
import ServiceDirectory.Connection.Search
import ServiceDirectory.Metrics.Registry
import ServiceDirectory.Status

/-! The state of a connection. Callers put packets into a queue; the carrier looks for a session and
then writes the packets on it; the dispatcher tells the listeners and runs the callbacks. Time is a
field, which nothing but the step that advances it changes. The history is for those who look back
at a run; no operation reads it. -/
namespace ServiceDirectory

/-- What is handed to the dispatcher, which passes it on in the same order. -/
inductive Dispatch where
  | status (previous current : ConnectionStatus)
  | session (event : SessionEvent) (id : SessionId) (endpoint : Option Endpoint)
  | notification (n : Notification)
  | completion (c : Completion)

/-- What listeners may listen to. -/
inductive Topic where
  | status
  | session
  | notification
  deriving DecidableEq, Inhabited

def Dispatch.topic? : Dispatch → Option Topic
  | .status _ _ => some .status
  | .session _ _ _ => some .session
  | .notification _ => some .notification
  | .completion _ => none

abbrev ListenerId := Nat

structure Listener where
  id : ListenerId
  topic : Topic
  deriving DecidableEq, Inhabited

/-- The number of a call, by which its caller knows the result. -/
abbrev Ticket := Nat

namespace Connection

/-- How far a send has come. -/
inductive SendStage where
  /-- The connection was open. -/
  | checked
  /-- A place among the outstanding packets is taken. -/
  | reserved
  /-- The packet has its number and waits to be queued. -/
  | numbered (p : Packet)

structure Sender where
  ticket : Ticket
  op : OpCode
  request : ByteArray
  callback : Callback
  stage : SendStage := .checked

/-- A call that waits for its turn, or has it. -/
inductive Call where
  | connect (timeout : Nat)
  | close
  deriving DecidableEq, Inhabited

/-- A session in use, and the times that its clocks run from. -/
structure Drive where
  session : Session
  lastFrame : Nat
  lastPong : Nat
  lastPing : Nat
  /-- Whether the first packet to repeat is being written. -/
  writing : Bool := false
  deriving DecidableEq, Inhabited

/-- What becomes of the packets. -/
inductive Carrier where
  /-- They wait for a first session that nobody looks for. -/
  | free
  | seeking (s : Search)
  | driving (d : Drive)
  /-- No more of them are taken. -/
  | finished

/-- Who holds a connection. -/
inductive Holding where
  | held
  /-- Only the calls under way, if there are any. -/
  | letGo
  | gone
  deriving DecidableEq, Inhabited

/-- What happened at a connection. -/
inductive Event where
  | reserved (ticket : Ticket)
  | accepted (ticket : Ticket) (p : PacketId)
  | refused (ticket : Ticket) (f : Failure)
  | published (d : Dispatch)
  | attempted (e : Endpoint) (offer : Option SessionId)
  | attemptFailed (e : Endpoint) (f : Failure)
  | opened (s : Session)
  /-- The request of a packet was written to its end. -/
  | written (p : PacketId)
  | pinged
  | received (f : ServerFrame)
  /-- The session broke off. -/
  | lost (f : Failure)
  /-- The session was given up; `told` says whether the server was told. -/
  | ended (told : Bool)
  | delivered (d : Dispatch) (listeners : List ListenerId)
  | returned (ticket : Ticket) (r : Except Failure Unit)

end Connection

open Connection in
structure Connection where
  settings : Settings
  now : Nat := 0
  roster : Roster
  /-- The endpoints that turned down the credentials. -/
  rejected : List Endpoint := []
  status : ConnectionStatus := .new
  sessionId : Option SessionId := none
  endpoint : Option Endpoint := none
  sessionTimeout : Option Nat := none
  /-- All packets that were accepted, in this order. -/
  packets : List Packet := []
  /-- Queued and not yet taken up by the carrier. -/
  outgoing : List PacketId := []
  /-- Taken up, but not written to the end. -/
  retry : List PacketId := []
  /-- Written, and without a response so far. -/
  pending : List (Xid × PacketId) := []
  dispatches : List Dispatch := []
  /-- How many places among the outstanding packets are taken. -/
  outstanding : Nat := 0
  nextXid : Xid := 1
  shutdown : Bool := false
  holding : Holding := .held
  senders : List Sender := []
  /-- The first of them has its turn. -/
  calls : List (Ticket × Call) := []
  carrier : Carrier := .free
  listeners : List Listener := []
  nextListener : ListenerId := 1
  nextTicket : Ticket := 0
  latency : Option LatencyRegistry := none
  /-- The latest event comes first. -/
  history : List Event := []

namespace Connection

def start (settings : Settings) (roster : Roster) : Connection :=
  { settings, roster, latency := if settings.collectsLatency then some {} else none }

def record (c : Connection) (e : Event) : Connection := { c with history := e :: c.history }

/-- Hands something to the dispatcher. -/
def publish (c : Connection) (d : Dispatch) : Connection :=
  { c with dispatches := c.dispatches ++ [d] }.record (.published d)

/-- Moves to another status, unless the connection is closed or the status is that one already. -/
def transition (c : Connection) (next : ConnectionStatus) : Connection :=
  if c.status = next ∨ c.status = .closed then c
  else { c with status := next }.publish (.status c.status next)

def updatePacket (c : Connection) (p : PacketId) (f : Packet → Packet) : Connection :=
  { c with packets := c.packets.modify p f }

/-- Completes a packet and hands its callback to the dispatcher, unless it was completed before. -/
def complete (c : Connection) (p : PacketId) (r : PacketResult) : Connection :=
  match c.packets[p]? >>= (·.complete? c.now r) with
  | none => c
  | some packet => { c with packets := c.packets.set p packet }.publish (.completion ⟨p, r⟩)

def failAll (c : Connection) (ps : List PacketId) (f : Failure) : Connection :=
  ps.foldl (fun c p => c.complete p (.error f)) c

/-- Ends the call whose turn it is. -/
def returnFirst (c : Connection) (r : Except Failure Unit) : Connection :=
  match c.calls with
  | [] => c
  | (ticket, _) :: calls => { c with calls }.record (.returned ticket r)

theorem status_transition (c : Connection) (next : ConnectionStatus) :
    (c.transition next).status = if c.status = .closed then .closed else next := by
  unfold transition
  by_cases h : c.status = next
  · simp [h]
  · by_cases hc : c.status = .closed <;> simp [h, hc, publish, record]

theorem complete_of_completed {c : Connection} {p : PacketId} {packet : Packet} {r : PacketResult}
    (h : c.packets[p]? = some packet) (hp : packet.completed = true) : c.complete p r = c := by
  have hn := (packet.complete?_eq_none_iff c.now r).2 hp
  simp [complete, h, hn]

/-- Completing a packet changes nothing but the packets, and what was published. -/
theorem complete_shape (c : Connection) (p : PacketId) (r : PacketResult) :
    ∃ packets dispatches history, c.complete p r = { c with packets, dispatches, history } := by
  unfold complete
  split
  · exact ⟨c.packets, c.dispatches, c.history, rfl⟩
  · exact ⟨_, _, _, rfl⟩

theorem failAll_shape (c : Connection) (ps : List PacketId) (f : Failure) :
    ∃ packets dispatches history, c.failAll ps f = { c with packets, dispatches, history } := by
  induction ps generalizing c with
  | nil => exact ⟨c.packets, c.dispatches, c.history, rfl⟩
  | cons p ps ih =>
    obtain ⟨packets, dispatches, history, h⟩ := c.complete_shape p (.error f)
    obtain ⟨packets', dispatches', history', h'⟩ := ih (c.complete p (.error f))
    refine ⟨packets', dispatches', history', ?_⟩
    rw [failAll, List.foldl_cons, ← failAll, h', h]

@[simp] theorem status_failAll (c : Connection) (ps : List PacketId) (f : Failure) :
    (c.failAll ps f).status = c.status := by
  obtain ⟨_, _, _, h⟩ := c.failAll_shape ps f
  rw [h]

@[simp] theorem pending_failAll (c : Connection) (ps : List PacketId) (f : Failure) :
    (c.failAll ps f).pending = c.pending := by
  obtain ⟨_, _, _, h⟩ := c.failAll_shape ps f
  rw [h]

@[simp] theorem retry_failAll (c : Connection) (ps : List PacketId) (f : Failure) :
    (c.failAll ps f).retry = c.retry := by
  obtain ⟨_, _, _, h⟩ := c.failAll_shape ps f
  rw [h]

theorem length_packets_complete (c : Connection) (p : PacketId) (r : PacketResult) :
    (c.complete p r).packets.length = c.packets.length := by
  unfold complete
  split
  · rfl
  · simp [publish, record]

end Connection
end ServiceDirectory
