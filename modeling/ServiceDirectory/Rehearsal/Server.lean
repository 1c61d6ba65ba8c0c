import ServiceDirectory.Connection.Reader

/-! Scripted servers. A server accepts links, answers the first frame on each as its script says,
and from then on only notes what it gets; it may answer pings. A frame that the client writes is on
the link until the server reads it, and it reads nothing while it is paused. -/
namespace ServiceDirectory.Rehearsal

/-- The answer to the first frame on a link. -/
inductive Reply where
  /-- A session: the one that was offered, if `resume` says so, or the one with this id. -/
  | connected (id : Option SessionId) (resume : Bool) (timeoutMs : Option UInt64) (readOnly : Bool)
  | bytes (b : ByteArray) (closes : Bool)
  | close
  | stall
  deriving Inhabited

structure Script where
  /-- Whether the server refuses links from the start. -/
  dead : Bool := false
  replies : List Reply := []
  autoPong : Bool := false
  /-- Whether a long frame cannot be written while the server is paused. -/
  smallBuffer : Bool := false
  deriving Inhabited

/-- The answer to the first frame on the `k`-th link; the last one of a script stays. -/
def Script.reply (s : Script) (k : Nat) : Reply :=
  match s.replies[k]?, s.replies.getLast? with
  | some r, _ => r
  | none, some r => r
  | none, none => .connected none false none false

/-- How a server ends a link. -/
inductive Ending where
  | orderly
  | reset
  deriving DecidableEq, Inhabited

/-- What a read at the end of a link meets. -/
def Ending.fault : Ending → StreamFault
  | .orderly => Inlet.earlyEof
  | .reset => ⟨.connectionReset, "Connection reset by peer (os error 104)"⟩

structure Link where
  /-- What the server has sent, as far as it has not been read. -/
  toClient : ByteArray := .empty
  /-- What the client has written, as far as it has not been read. -/
  toServer : List ClientFrame := []
  paused : Bool := false
  answered : Bool := false
  ending : Option Ending := none
  /-- Whether the client has ended the link. -/
  left : Bool := false
  /-- Whether the server has noticed that. -/
  noticed : Bool := false
  deriving Inhabited

namespace Link

def send (l : Link) (b : ByteArray) : Link := { l with toClient := l.toClient ++ b }

/-- Takes a frame from the client. -/
def push (l : Link) (f : ClientFrame) : Link := { l with toServer := l.toServer ++ [f] }

def isOpen (l : Link) : Bool := l.ending.isNone && !l.left

/-- Whether a whole message is there, or a length that no message has. -/
def isReady (l : Link) : Bool :=
  let n := Framing.length (l.toClient.extract 0 4)
  4 ≤ l.toClient.size && (Framing.maxSize < n || 4 + n ≤ l.toClient.size)

/-- The stream to read from, if there is a message or the link has ended. -/
def inlet? (l : Link) : Option Inlet :=
  if l.isReady || l.ending.isSome then
    some { bytes := l.toClient, fault := l.ending.map (·.fault) }
  else none

/-- What is left on the link after its stream has been read. -/
def after (l : Link) (i : Inlet) : Link :=
  { l with toClient := i.bytes.extract i.position i.bytes.size }

end Link

/-- What a server notes about its links, which are numbered. -/
inductive LogEntry where
  | frame (link : Nat) (f : ClientFrame)
  /-- The client has ended the link. -/
  | ended (link : Nat)

def LogEntry.link : LogEntry → Nat
  | .frame k _ => k
  | .ended k => k

structure Server where
  script : Script
  /-- Whether it refuses links. -/
  stopped : Bool := script.dead
  links : List Link := []
  log : List LogEntry := []
  deriving Inhabited

namespace Server

/-- A link with the number one hundred less gets a session with this id, where the script leaves
it open. -/
def firstId : Nat := 100

/-- What the server does about the first frame. -/
def answerTo (s : Server) (k : Nat) (f : ClientFrame) (l : Link) : Link :=
  let l := { l with answered := true }
  match s.script.reply k with
  | .stall => l
  | .close => { l with ending := some .orderly }
  | .bytes b closes => { l.send b with ending := if closes then some .orderly else none }
  | .connected id resume timeoutMs readOnly =>
    let (offer, asked) := match f with
      | .connect r => (r.sessionId, r.sessionTimeoutMs)
      | _ => (none, 0)
    let id := id.getD (UInt64.ofNat (firstId + k))
    let id := if resume then offer.getD id else id
    l.send (Framing.frame (ServerFrame.connected ⟨id, timeoutMs.getD asked, readOnly⟩).encode)

/-- Deals with the next frame on a link. -/
def read (s : Server) (k : Nat) (f : ClientFrame) (l : Link) : Link :=
  if !l.answered then s.answerTo k f l
  else
    match s.script.autoPong, f with
    | true, .ping => l.send (Framing.frame ServerFrame.pong.encode)
    | _, _ => l

/-- One thing that the server has to do on its `k`-th link. -/
def work (s : Server) (k : Nat) : Option Server :=
  match s.links[k]? with
  | none => none
  | some l =>
    if l.paused || l.ending.isSome || l.noticed then none
    else
      match l.toServer with
      | f :: rest =>
        some { s with
          links := s.links.set k (s.read k f { l with toServer := rest })
          log := s.log ++ [.frame k f] }
      | [] =>
        if l.left then
          some { s with
            links := s.links.set k { l with noticed := true }, log := s.log ++ [.ended k] }
        else none

/-- One thing that the server has to do on any link. -/
def workAny (s : Server) : Option Server := (List.range s.links.length).findSome? s.work

/-- Accepts a link. -/
def accept (s : Server) : Nat × Server := (s.links.length, { s with links := s.links ++ [{}] })

def updateLink (s : Server) (k : Nat) (f : Link → Link) : Server :=
  { s with links := s.links.modify k f }

/-- Changes the latest link, if it is open. -/
def updateLatest (s : Server) (f : Link → Link) : Option Server :=
  match s.links.getLast? with
  | some l => if l.isOpen then some (s.updateLink (s.links.length - 1) f) else none
  | none => none

/-- Whether the frame of a packet cannot be written to its end for now. -/
def holdsUp (s : Server) (l : Link) (size : Nat) : Bool :=
  s.script.smallBuffer && l.paused && 1024 * 1024 < size

end Server
end ServiceDirectory.Rehearsal
