import ServiceDirectory.Attachment
import ServiceDirectory.Connection.Machine
import ServiceDirectory.Rehearsal.Server

/-! Rehearsals: a connection against scripted servers. All that can happen without time passing
happens at once, one move after the other: first what is published is delivered, then calls get
their turn, then the carrier moves, and last the servers do. Without a route no server is
reached. -/
namespace ServiceDirectory

/-- Whether the servers can be reached. -/
inductive Rehearsal.Network where
  | unrouted
  | routed
  deriving DecidableEq, Inhabited

structure Rehearsal where
  network : Rehearsal.Network
  servers : List Rehearsal.Server
  connection : Connection
  /-- The link that the carrier uses: its server and its number there. -/
  link : Option (Nat × Nat) := none
  cache : InstanceCache := {}
  /-- The listeners that feed the cache. -/
  cacheListeners : List ListenerId := []

namespace Rehearsal

def loopback : String := "127.0.0.1"

def firstPort : Nat := 40000

/-- Where the `i`-th server is. -/
def endpointOf (i : Nat) : Endpoint := ⟨loopback, UInt16.ofNat (firstPort + i)⟩

def serverAt (e : Endpoint) : Nat := e.port.toNat - firstPort

/-- The name of the `i`-th server. -/
def nameOf (i : Nat) : String := "s" ++ Decimal.string i

def updateServer (r : Rehearsal) (i : Nat) (f : Server → Server) : Rehearsal :=
  { r with servers := r.servers.modify i f }

def updateLink (r : Rehearsal) (f : Link → Link) : Rehearsal :=
  match r.link with
  | none => r
  | some (i, k) => r.updateServer i (·.updateLink k f)

/-- The link that the carrier uses, with its server. -/
def current? (r : Rehearsal) : Option (Server × Link) := do
  let (i, k) ← r.link
  let s ← r.servers[i]?
  return (s, ← s.links[k]?)

/-- Writes on the link what an event at the connection says. -/
def transmit (r : Rehearsal) : Connection.Event → Rehearsal
  | .written p =>
    match r.connection.packets[p]? with
    | some p => r.updateLink (·.push p.frame)
    | none => r
  | .pinged => r.updateLink (·.push .ping)
  | .ended true => r.updateLink (·.push .close)
  | _ => r

/-- Tells the cache what its listeners are told. -/
def inform (r : Rehearsal) : Connection.Event → Rehearsal
  | .delivered d listeners =>
    let ours := listeners.filter r.cacheListeners.contains
    { r with cache := ours.foldl (fun c _ => c.hear d) r.cache }
  | _ => r

/-- Whether the carrier needs a link. -/
def needsLink : Connection.Carrier → Bool
  | .driving _ => true
  | .seeking s =>
    match s.phase with
    | .handshake _ _ => true
    | _ => false
  | _ => false

/-- Ends the link once the carrier does not need it. -/
def release (r : Rehearsal) : Rehearsal :=
  if needsLink r.connection.carrier then r
  else { r.updateLink ({ · with left := true }) with link := none }

/-- The events since the history had `n` of them, in their order. -/
def eventsSince (c : Connection) (n : Nat) : List Connection.Event :=
  (c.history.take (c.history.length - n)).reverse

/-- Follows the connection into its next state. -/
def follow (r : Rehearsal) (c : Connection) : Rehearsal :=
  let events := eventsSince c r.connection.history.length
  let r := events.foldl transmit { r with connection := c }
  (events.foldl inform r).release

/-- Lets the connection take a step. -/
def act (r : Rehearsal) (a : Connection.Action) : Option Rehearsal :=
  (r.connection.step a).map r.follow

def unreachable (r : Rehearsal) (e : Endpoint) : String :=
  "connect to " ++ e.display ++ ": " ++
    match r.network with
    | .unrouted => "Network is unreachable (os error 101)"
    | .routed => "Connection refused (os error 111)"

/-- Opens a link and writes the first frame on it. An attempt without any time comes no further
than the opening. -/
def dial (r : Rehearsal) (s : Search) (e : Endpoint) (stop : Nat) : Option Rehearsal :=
  let i := serverAt e
  let refuse := r.act (.answer (.error (.connectionLoss (r.unreachable e))))
  match r.network, r.servers[i]? with
  | .routed, some server =>
    let accepts := !server.stopped
    let (k, server') := server.accept
    let linked := { r with servers := r.servers.set i server', link := some (i, k) }
    if stop ≤ r.connection.now then (if accepts then linked else r).act .timeOut
    else if accepts then
      some (linked.updateLink (·.push (.connect (s.request r.connection.settings))))
    else refuse
  | _, _ => refuse

/-- Waits for the answer to a handshake. -/
def handshake (r : Rehearsal) (stop : Nat) : Option Rehearsal := do
  let (_, l) ← r.current?
  match l.inlet? with
  | some i =>
    let (m, i) := ServerFrame.receive i
    (r.updateLink (·.after i)).act (.answer m)
  | none => if stop ≤ r.connection.now then r.act .timeOut else none

def seek (r : Rehearsal) (s : Search) : Option Rehearsal :=
  match s.phase with
  | .handshake e stop =>
    match r.act .stop, r.link with
    | some r, _ => some r
    | none, none => r.dial s e stop
    | none, some _ => r.handshake stop
  | .pausing _ => r.act .stop <|> r.act .seek
  | _ => r.act .seek

/-- How the writing of the next packet goes. At an orderly end bytes still go out, unless some of
them have had to wait. -/
def writing (r : Rehearsal) (s : Server) (l : Link) (stalled : Bool) : Connection.Writing :=
  let next := r.connection.retry.head?.or r.connection.outgoing.head?
  let size := match next >>= fun (p : PacketId) => r.connection.packets[p]? with
    | some p => if s.script.smallBuffer then p.frameSize else 0
    | none => 0
  if l.ending = some .reset || l.ending.isSome && stalled then
    .broken (Framing.failure "writing data" Ending.reset.fault)
  else if s.holdsUp l size then .stalled
  else .done

/-- Reads from the link until there is a frame for the carrier or nothing more to read. -/
def receive : Nat → Rehearsal → Option Rehearsal
  | 0, _ => none
  | fuel + 1, r => do
    let (_, l) ← r.current?
    let i ← l.inlet?
    let reader := FrameReader.turn { inlet := i } true
    let read := r.updateLink (·.after reader.inlet)
    match reader.handed with
    | [] => receive fuel read
    | m :: _ => read.act (.receive m)

/-- Uses the session. A write that is stalled is taken up again once it can go on. -/
def drive (r : Rehearsal) (d : Connection.Drive) : Option Rehearsal := do
  let (s, l) ← r.current?
  let w := r.writing s l d.writing
  if d.writing then
    match w with
    | .stalled => none
    | w => r.act (.write w)
  else
    r.act (.hangUp true) <|> receive (l.toClient.size + 1) r <|> r.act (.write w) <|>
      r.act (.tick (.ok ()))

def carry (r : Rehearsal) : Option Rehearsal :=
  match r.connection.carrier with
  | .seeking s => r.seek s
  | .driving d => r.drive d
  | _ => none

/-- One thing that any of the servers has to do. -/
def serve (r : Rehearsal) : Option Rehearsal :=
  (List.range r.servers.length).findSome? fun i => do
    let s ← r.servers[i]?
    let s ← s.workAny
    return { r with servers := r.servers.set i s }

def move (r : Rehearsal) : Option Rehearsal :=
  r.act .deliver <|> r.act .enter <|> r.act .drop <|> r.carry <|> r.serve

/-- Makes moves until nothing moves any more, at most as many as it is given. -/
def settleWithin : Nat → Rehearsal → Rehearsal
  | 0, r => r
  | fuel + 1, r =>
    match r.move with
    | some r => settleWithin fuel r
    | none => r

def patience : Nat := 1000000

def settle (r : Rehearsal) : Rehearsal := settleWithin patience r

end Rehearsal
end ServiceDirectory
