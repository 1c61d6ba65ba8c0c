import ServiceDirectory.Rehearsal.Report

/-! Plays: rehearsals that follow a list of steps, and what is seen after each of them. Listeners
and packets have labels; the last one under a label is meant. -/
namespace ServiceDirectory

structure Play where
  rehearsal : Rehearsal
  listeners : List (String × ListenerId) := []
  packets : List (String × PacketId) := []
  /-- The sends so far, with those that were refused. -/
  sends : Nat := 0
  submitted : List (PacketId × String) := []
  /-- The calls to connect. -/
  connects : List Ticket := []
  /-- How many events have been shown. -/
  shown : Nat := 0

namespace Play

inductive Step where
  | connect (timeout : Option Nat)
  | close
  | submit (label : String) (op : OpCode) (request : ByteArray)
  | send (label : Option String) (op : OpCode) (request : ByteArray) (callback : Callback)
  | packet (label : String)
  | listen (label : String) (topic : Topic)
  | unlisten (label : String)
  | attachCache
  | cache
  | latency
  | updateRoster (servers : List Nat)
  | drop
  | advance (time : Nat)
  /-- Sends bytes on the latest link of a server. -/
  | serverSend (server : Nat) (b : ByteArray)
  | serverEnd (server : Nat) (e : Rehearsal.Ending)
  | serverPause (server : Nat) (paused : Bool)
  | serverStop (server : Nat)

inductive Result where
  | ok
  | started
  | noConnection
  | sent (p : Packet)
  | failed (f : Failure)
  | packet (p : Option Packet)
  | removed (b : Bool)
  | instances (services : Dictionary (List ServiceInstance))
  | latency (l : Option LatencySnapshot)

/-- A call that has ended. -/
inductive Finished where
  | connect (r : Except Failure Unit)
  | close
  | submit (label : String) (r : PacketResult)

/-- What is seen after a step. Notes come with the label of their listener or callback, where it
was given with a step. -/
structure View where
  result : Result
  notes : List (Rehearsal.Note × Option String)
  finished : List Finished
  logs : List (List Rehearsal.LogEntry)
  connection : Option Connection

/-- A connection to some of the scripted servers. A listener of each kind is there from the
start. -/
def start (network : Rehearsal.Network) (scripts : List Rehearsal.Script) (roster : List Nat)
    (settings : Settings) : Except Failure Play := do
  let roster ← Roster.ofEndpoints (roster.map Rehearsal.endpointOf)
  let c := [Topic.status, .session, .notification].foldl Connection.listen (.start settings roster)
  return {
    rehearsal := { network, servers := scripts.map fun script => { script }, connection := c }
    listeners := [("notification", 3), ("session", 2), ("status", 1)] }

/-- The number of the last listener that is there from the start. -/
def lastInitial : ListenerId := 3

def connection (p : Play) : Connection := p.rehearsal.connection

/-- Lets the connection take a step, if it can. -/
def act (p : Play) (a : Connection.Action) : Play :=
  { p with rehearsal := (p.rehearsal.act a).getD p.rehearsal }

/-- Sends a packet, and says what came of it. -/
def send (p : Play) (op : OpCode) (request : ByteArray) (callback : Callback) :
    Except Failure PacketId × Play :=
  let c := p.connection.send op request callback
  let p := { p with rehearsal := p.rehearsal.follow c }
  match c.history.head? with
  | some (.accepted _ id) => (.ok id, p)
  | some (.refused _ f) => (.error f, p)
  | _ => (.error .connectionClosed, p)

def updateServer (p : Play) (i : Nat) (f : Rehearsal.Link → Rehearsal.Link) : Result × Play :=
  match p.rehearsal.servers[i]? >>= (·.updateLatest f) with
  | some s =>
    (.ok, { p with rehearsal := { p.rehearsal with servers := p.rehearsal.servers.set i s } })
  | none => (.noConnection, p)

def listen (p : Play) (label : String) (topic : Topic) : Play :=
  let id := p.connection.nextListener
  { p.act (.listen topic) with listeners := (label, id) :: p.listeners }

/-- Attaches the cache: it is told of notifications and sessions. -/
def attachCache (p : Play) : Play :=
  let n := p.connection.nextListener
  let p := (p.listen "cache0" .notification).listen "cache1" .session
  let rehearsal := { p.rehearsal with cacheListeners := n :: (n + 1) :: p.rehearsal.cacheListeners }
  { p with rehearsal }

/-- Does what a step says, together with the calls that have ended at once. -/
def perform (p : Play) : Step → Result × List Finished × Play
  | .connect timeout =>
    let ticket := p.connection.nextTicket
    let timeout := timeout.getD p.connection.settings.connectTimeout
    (.started, [], { p.act (.callConnect timeout) with connects := ticket :: p.connects })
  | .close => (.started, [], p.act .callClose)
  | .submit label op request =>
    match p.send op request .wakes with
    | (.ok id, p) => (.started, [], { p with submitted := (id, label) :: p.submitted })
    | (.error f, p) => (.started, [.submit label (.error f)], p)
  | .send label op request callback =>
    let n := p.sends + 1
    let label := label.getD ("p" ++ Decimal.string n)
    match { p with sends := n }.send op request callback with
    | (.ok id, p) =>
      ((p.connection.packets[id]?).elim .noConnection .sent, [],
        { p with packets := (label, id) :: p.packets })
    | (.error f, p) => (.failed f, [], p)
  | .packet label =>
    (.packet (p.packets.lookup label >>= fun (id : PacketId) => p.connection.packets[id]?), [], p)
  | .listen label topic => (.ok, [], p.listen label topic)
  | .unlisten label =>
    match p.listeners.lookup label with
    | some id => (.removed (p.connection.unlisten id).1, [], p.act (.unlisten id))
    | none => (.removed false, [], p)
  | .attachCache => (.ok, [], p.attachCache)
  | .cache => (.instances p.rehearsal.cache.services, [], p)
  | .latency => (.latency (p.connection.latency.map (·.snapshot)), [], p)
  | .updateRoster servers =>
    let endpoints := servers.map Rehearsal.endpointOf
    match (p.connection.updateRoster endpoints).1 with
    | .ok () => (.ok, [], p.act (.updateRoster endpoints))
    | .error f => (.failed f, [], p)
  | .drop => (.ok, [], p.act .letGo)
  | .advance time => (.ok, [], p.act (.advance time))
  | .serverSend i b =>
    let (r, p) := p.updateServer i (·.send b)
    (r, [], p)
  | .serverEnd i e =>
    let (r, p) := p.updateServer i ({ · with ending := some e })
    (r, [], p)
  | .serverPause i paused =>
    let (r, p) := p.updateServer i ({ · with paused })
    (r, [], p)
  | .serverStop i =>
    (.ok, [], { p with rehearsal := p.rehearsal.updateServer i ({ · with stopped := true }) })

/-- The calls that an event ends. -/
def finished? (p : Play) : Connection.Event → Option Finished
  | .returned ticket r => some (if p.connects.contains ticket then .connect r else .close)
  | .delivered (.completion k) _ => (p.submitted.lookup k.packet).map (.submit · k.result)
  | _ => none

/-- A note as it is shown; those of the cache and of submitted packets are not. -/
def shown? (p : Play) (n : Rehearsal.Note) : Option (Rehearsal.Note × Option String) :=
  let heard (l : ListenerId) : Option (Rehearsal.Note × Option String) :=
    if l ≤ lastInitial then some (n, none)
    else if p.rehearsal.cacheListeners.contains l then none
    else (p.listeners.find? (·.2 == l)).map fun x => (n, some x.1)
  match n with
  | .callback id _ => (p.packets.find? (·.2 == id)).map fun x => (n, some x.1)
  | .status _ _ l => heard l
  | .session _ _ _ l => heard l
  | .notification _ l => heard l

/-- Takes a step, lets everything settle, and looks at what has happened. -/
def next (p : Play) (s : Step) : View × Play :=
  let (result, atOnce, p) := p.perform s
  let p := { p with rehearsal := p.rehearsal.settle }
  let events := Rehearsal.eventsSince p.connection p.shown
  let (logs, rehearsal) := p.rehearsal.takeLogs
  let notes := Rehearsal.Note.sortRows
    ((events.flatMap Rehearsal.Note.ofEvent).filter fun n => (p.shown? n).isSome)
  let connection := if p.connection.holding = .held then some p.connection else none
  ({ result, notes := notes.filterMap p.shown?, finished := atOnce ++ events.filterMap p.finished?,
     logs, connection },
   { p with rehearsal, shown := p.connection.history.length })

/-- Takes all steps. -/
def views (p : Play) : List Step → List View
  | [] => []
  | s :: rest =>
    let (v, p) := p.next s
    v :: p.views rest

end Play
end ServiceDirectory
