import ServiceDirectory.Connection.Session

/-! The steps of the carrier. While it looks for a session it draws endpoints from the roster, each
in a step of its own, and waits for their answers. With a session it writes one packet after the
other, handles the frames that arrive, and watches three clocks: how long ago the last pong, the
last frame and the last ping were. A step that has to wait is none. -/
namespace ServiceDirectory.Connection

/-! Looking for a session -/

def searchFailed (c : Connection) (s : Search) (f : Failure) : Connection :=
  if s.resumes then c.closeOut else c.connectFailed f

def searchStopped (c : Connection) (s : Search) : Connection :=
  if s.resumes then c.closeOut
  else { c with carrier := .free }.returnFirst (.error .connectionClosed)

/-- Goes on as a step of a search says. -/
def proceed (c : Connection) (s : Search) : Search.Progress → Connection
  | .continues s => { c with carrier := .seeking s }
  | .failed f => c.searchFailed s f
  | .stopped => c.searchStopped s

/-- Opens a session and begins to use it. -/
def openSession (c : Connection) (s : Search) (session : Session) : Connection :=
  let c := c.sessionStarted session s
  let c := { c with
    carrier := .driving { session, lastFrame := c.now, lastPong := c.now, lastPing := c.now } }
  if s.resumes then c else c.returnFirst (.ok ())

/-- Ends an attempt. An endpoint that turned down the credentials is not tried again. -/
def attemptFailed (c : Connection) (s : Search) (e : Endpoint) (f : Failure) : Connection :=
  let c := { c with carrier := .seeking (s.giveUp f) }.record (.attemptFailed e f)
  if f.isAuth then { c with rejected := e :: c.rejected }.transition .authFailed else c

/-- Takes the next endpoint from the roster: an attempt on it begins, unless it has turned down the
credentials. -/
def draw (c : Connection) (s : Search) (left : Nat) : Connection :=
  let (e, roster) := c.roster.next
  let c := { c with roster }
  if c.rejected.contains e then { c with carrier := .seeking { s with phase := .drawing left } }
  else { c with carrier := .seeking (s.face e c.now) }.record (.attempted e s.offer)

/-- Moves on to the next attempt, its pause or the choice of its endpoint. As many endpoints may be
drawn as the roster has when they are counted; it may be replaced between any two of the steps. -/
def seek (c : Connection) : Option Connection :=
  match c.carrier with
  | .seeking s =>
    match s.phase with
    | .ready => some (c.proceed s (s.begin c.settings c.now c.shutdown))
    | .pausing stop =>
      if stop ≤ c.now then some { c with carrier := .seeking { s with phase := .choosing } }
      else none
    | .choosing => some { c with carrier := .seeking { s with phase := .drawing c.roster.size } }
    | .drawing 0 => some (c.searchFailed s s.exhausted)
    | .drawing (left + 1) => some (c.draw s left)
    | .handshake _ _ => none
  | _ => none

/-- Takes in how the handshake went: the first frame from the server, or why there is none. -/
def answer (c : Connection) (r : Except Failure ServerFrame) : Option Connection :=
  match c.carrier with
  | .seeking s =>
    match s.phase with
    | .handshake e _ =>
      match r >>= Session.ofAnswer e c.settings with
      | .ok session => some (c.openSession s session)
      | .error f => some (c.attemptFailed s e f)
    | _ => none
  | _ => none

/-- Ends a handshake that takes too long. -/
def timeOut (c : Connection) : Option Connection :=
  match c.carrier with
  | .seeking s =>
    match s.phase with
    | .handshake e stop =>
      if stop ≤ c.now then some (c.attemptFailed s e (.connectTimeout e s.timeoutMs)) else none
    | _ => none
  | _ => none

/-- Stops a search that waits. -/
def stop (c : Connection) : Option Connection :=
  match c.carrier with
  | .seeking s =>
    if c.shutdown then
      match s.phase with
      | .pausing _ => some (c.searchStopped s)
      | .handshake _ _ => some (c.searchStopped s)
      | _ => none
    else none
  | _ => none

/-! Using a session -/

/-- How far the writing of a frame came. -/
inductive Writing where
  | done
  /-- Some bytes have to wait. -/
  | stalled
  | broken (f : Failure)

/-- Writes the request of a packet that is in no queue. One that is too long fails before a byte is
written, and the session goes on. -/
def writeRequest (c : Connection) (d : Drive) (id : PacketId) (p : Packet) (w : Writing) :
    Connection :=
  let idle (c : Connection) : Connection :=
    { c with carrier := .driving { d with writing := false } }
  if p.completed then idle c
  else if p.isOversized then idle (c.complete id (.error (Framing.tooLarge p.frameSize)))
  else
    match w with
    | .done =>
      let pending := c.pending.filter (fun q => q.1 != p.xid) ++ [(p.xid, id)]
      idle ({ c.updatePacket id (·.markSent c.now) with pending }.record (.written id))
    | .stalled =>
      { c with retry := id :: c.retry, carrier := .driving { d with writing := true } }
    | .broken f => { c with retry := c.retry ++ [id] }.sessionFailed (.connectionLoss f.message)

/-- Takes up a packet and writes it; those of an earlier session come first. -/
def write (c : Connection) (w : Writing) : Option Connection :=
  match c.carrier with
  | .driving d =>
    if c.shutdown && !d.writing then none
    else
      match c.retry, c.outgoing with
      | id :: retry, _ => (c.packets[id]?).map fun p => { c with retry }.writeRequest d id p w
      | [], id :: outgoing =>
        (c.packets[id]?).map fun p => { c with outgoing }.writeRequest d id p w
      | [], [] => none
  | _ => none

/-- Pairs a response with its packet; a response that nobody waits for is dropped. -/
def respond (c : Connection) (r : ResponseFrame) : Connection :=
  match c.pending.lookup r.xid with
  | none => c
  | some id =>
    { c with pending := c.pending.filter (·.1 != r.xid) }.updatePacket id (·.markReceived c.now)
      |>.complete id (Packet.resultOf r)

/-- Handles a frame that arrived. A handshake frame means nothing on an open session. -/
def handle (c : Connection) (d : Drive) : ServerFrame → Connection
  | .response r => c.respond r
  | .pong => { c with carrier := .driving { d with lastPong := c.now } }
  | .notification n => c.publish (.notification n)
  | .sessionExpired => c.sessionFailed .sessionExpired
  | .connected _ => c
  | .authFailed _ => c

/-- Takes the next frame from the server, or the failure behind the last one. -/
def receive (c : Connection) (r : Except Failure ServerFrame) : Option Connection :=
  match c.carrier with
  | .driving d =>
    if c.shutdown || d.writing || !c.retry.isEmpty then none
    else
      match r with
      | .ok f =>
        let d := { d with lastFrame := c.now }
        some (({ c with carrier := .driving d }.record (.received f)).handle d f)
      | .error f => some (c.sessionFailed (.connectionLoss f.message))
  | _ => none

namespace Drive

def expiry (d : Drive) : Nat := d.lastPong + d.session.timeout

def silenceEnd (d : Drive) (settings : Settings) : Nat := d.lastFrame + settings.readTimeout

def nextPing (d : Drive) (settings : Settings) : Nat :=
  d.lastPing + settings.pingInterval d.session.timeout

/-- When the first of the clocks runs out. -/
def due (d : Drive) (settings : Settings) : Nat :=
  min (min d.expiry (d.silenceEnd settings)) (d.nextPing settings)

end Drive

/-- Acts on the clocks: the session ends, or a ping is written, which may fail. -/
def tick (c : Connection) (ping : Except Failure Unit) : Option Connection :=
  match c.carrier with
  | .driving d =>
    if c.shutdown || d.writing || !c.retry.isEmpty then none
    else if d.expiry ≤ c.now then some (c.sessionFailed .sessionExpired)
    else if d.silenceEnd c.settings ≤ c.now then
      some (c.sessionFailed (.readTimeout c.settings.readTimeoutMs))
    else if d.nextPing c.settings ≤ c.now then
      let c := { c with carrier := .driving { d with lastPing := c.now } }
      match ping with
      | .ok () => some (c.record .pinged)
      | .error f => some (c.sessionFailed (.connectionLoss f.message))
    else none
  | _ => none

/-- Ends the session because the connection is to be closed; `told` says whether the frame that
tells the server so could be written. -/
def hangUp (c : Connection) (told : Bool) : Option Connection :=
  match c.carrier with
  | .driving d =>
    if c.shutdown && !d.writing then some (c.record (.ended told)).closeOut else none
  | _ => none

/-- The time at which the carrier has something to do, if nothing else happens before. -/
def due? (c : Connection) : Option Nat :=
  match c.carrier with
  | .seeking s =>
    match s.phase with
    | .pausing stop => some stop
    | .handshake _ stop => some stop
    | _ => none
  | .driving d => if d.writing then none else some (d.due c.settings)
  | _ => none

end ServiceDirectory.Connection
