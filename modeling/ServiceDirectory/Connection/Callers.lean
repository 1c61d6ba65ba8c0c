import ServiceDirectory.Connection.Session

/-! What callers do with a connection. A send goes through four steps, between which others may
come. Calls to connect and to close wait for each other; a call to close stops the search of the
call before it.

A call runs to its end. A caller that gives up a call before is left out: the queue that a call to
connect has taken for its search is lost then, and no packet is taken any more. -/
namespace ServiceDirectory.Connection

/-- Begins a send; it is refused if the connection is closed. -/
def beginSend (c : Connection) (op : OpCode) (request : ByteArray) (callback : Callback) :
    Connection :=
  let ticket := c.nextTicket
  let c := { c with nextTicket := ticket + 1 }
  if c.status.isAlive then
    { c with senders := c.senders ++ [⟨ticket, op, request, callback, .checked⟩] }
  else c.record (.refused ticket .connectionClosed)

/-- Takes a place among the outstanding packets, if there is one left. -/
def reserve (c : Connection) (i : Nat) : Option Connection :=
  match c.senders[i]? with
  | some { ticket, op, request, callback, stage := .checked } =>
    if c.outstanding < c.settings.maxOutstanding then
      some ({ c with
        outstanding := c.outstanding + 1
        senders := c.senders.set i { ticket, op, request, callback, stage := .reserved } }.record
        (.reserved ticket))
    else
      some ({ c with senders := c.senders.eraseIdx i }.record
        (.refused ticket (.backlogFull c.settings.maxOutstanding)))
  | _ => none

/-- Makes the packet. The numbers start again with zero after the last one. -/
def number (c : Connection) (i : Nat) : Option Connection :=
  match c.senders[i]? with
  | some { ticket, op, request, callback, stage := .reserved } =>
    let stamps : Stamps := { created := c.now, queued := some c.now }
    let p : Packet := { xid := c.nextXid, op, request, callback, stamps }
    some { c with
      nextXid := c.nextXid + 1
      senders := c.senders.set i { ticket, op, request, callback, stage := .numbered p } }
  | _ => none

/-- Queues the packet, unless no more are taken. -/
def enqueue (c : Connection) (i : Nat) : Option Connection :=
  match c.senders[i]? with
  | some { ticket, stage := .numbered p, .. } =>
    let c := { c with senders := c.senders.eraseIdx i }
    match c.carrier with
    | .finished =>
      some ({ c with outstanding := c.outstanding - 1 }.record (.refused ticket .connectionClosed))
    | _ =>
      let id := c.packets.length
      some ({ c with packets := c.packets ++ [p], outgoing := c.outgoing ++ [id] }.record
        (.accepted ticket id))
  | _ => none

def addCall (c : Connection) (call : Call) : Connection :=
  { c with calls := c.calls ++ [(c.nextTicket, call)], nextTicket := c.nextTicket + 1 }

def callConnect (c : Connection) (timeout : Nat) : Connection := c.addCall (.connect timeout)

/-- The shutdown does not wait for the turn of the call. -/
def callClose (c : Connection) : Connection := { c with shutdown := true }.addCall .close

/-- Gives the first call its turn. A call to connect looks for a first session, once; a call to
close waits until the carrier has nothing to do with a session any more. -/
def enter (c : Connection) : Option Connection :=
  match c.calls, c.carrier with
  | [], _ => none
  | (_, .connect timeout) :: _, carrier =>
    if c.status = .closed then some (c.returnFirst (.error .connectionClosed))
    else
      match carrier with
      | .free => some { c with carrier := .seeking (.initial c.now timeout) }
      | .seeking { resumes := false, .. } => none
      | _ =>
        some (c.returnFirst
          (if c.status.isConnected then .ok ()
          else .error (.connectionLoss "reconnect already in progress")))
  | (_, .close) :: _, .seeking _ => none
  | (_, .close) :: _, .driving _ => none
  | (_, .close) :: _, _ => some (c.closeOut.returnFirst (.ok ()))

/-- Lets go of the connection; calls under way go on. -/
def letGo (c : Connection) : Connection := { c with holding := .letGo }

/-- Shuts down a connection that nobody holds any more, not even a caller that waits for the result
of a packet. The carrier closes the session that it has. -/
def drop (c : Connection) : Option Connection :=
  match c.holding, c.calls, c.senders with
  | .letGo, [], [] =>
    if c.packets.any (·.isAwaited) then none else
    let c := { c with shutdown := true, holding := .gone }
    match c.carrier with
    | .seeking _ => some c
    | .driving _ => some c
    | _ => some c.closeOut
  | _, _, _ => none

def listen (c : Connection) (topic : Topic) : Connection :=
  { c with
    listeners := c.listeners ++ [⟨c.nextListener, topic⟩], nextListener := c.nextListener + 1 }

/-- Removes a listener, and says whether there was one. -/
def unlisten (c : Connection) (id : ListenerId) : Bool × Connection :=
  (c.listeners.any (·.id == id), { c with listeners := c.listeners.filter (·.id != id) })

/-- Replaces the endpoints; an empty list changes nothing. -/
def updateRoster (c : Connection) (endpoints : List Endpoint) : Except Failure Unit × Connection :=
  match c.roster.update endpoints with
  | .ok roster => (.ok (), { c with roster })
  | .error f => (.error f, c)

end ServiceDirectory.Connection
