import ServiceDirectory.Codec.RequestSize
import ServiceDirectory.Frame.Description
import ServiceDirectory.Framing

/-! Packets: requests on their way. A packet is completed once, by a response or by a failure, and
every later completion leaves it alone. The stamps say when it passed the stations of its life. -/
namespace ServiceDirectory

structure Stamps where
  created : Nat
  queued : Option Nat := none
  sent : Option Nat := none
  received : Option Nat := none
  finished : Option Nat := none
  callbackInvoked : Option Nat := none
  deriving DecidableEq, Inhabited

/-- What a callback is told: the payload of the response, or why there is none. -/
abbrev PacketResult := Except Failure ByteArray

/-- What is run with the result of a packet. -/
inductive Callback where
  | returns
  | breaksOff
  /-- The caller waits for the result and goes on with it. -/
  | wakes
  deriving DecidableEq, Inhabited

structure Packet where
  xid : Xid
  op : OpCode
  request : ByteArray
  callback : Callback := .returns
  stamps : Stamps
  completed : Bool := false
  response : Option ByteArray := none
  errorCode : Option ErrorCode := none
  deriving Inhabited

namespace Packet

def requestFrame (p : Packet) : RequestFrame := ⟨p.xid, p.op, p.request⟩

def frame (p : Packet) : ClientFrame := .request p.requestFrame

/-- How many bytes the frame takes. -/
def frameSize (p : Packet) : Nat := p.requestFrame.size

theorem size_encode_frame (p : Packet) : p.frame.encode.size = p.frameSize :=
  size_encode_request p.requestFrame

/-- Whether a caller waits for the result. -/
def isAwaited (p : Packet) : Bool := p.callback = .wakes && p.stamps.callbackInvoked.isNone

/-- Whether the frame is too long to be written. -/
def isOversized (p : Packet) : Bool := Framing.maxSize < p.frameSize

/-- A request without a payload can always be written. -/
theorem isOversized_of_empty {p : Packet} (h : p.request = .empty) : p.isOversized = false := by
  have size := p.requestFrame.size_le
  have empty : payloadWidth p.requestFrame.payload = 2 := by
    rw [requestFrame, h]
    rfl
  rw [isOversized, frameSize, decide_eq_false_iff_not, Framing.maxSize]
  omega

def markSent (p : Packet) (now : Nat) : Packet :=
  { p with stamps := { p.stamps with sent := some now } }

def markReceived (p : Packet) (now : Nat) : Packet :=
  { p with stamps := { p.stamps with received := some now } }

def markInvoked (p : Packet) (now : Nat) : Packet :=
  { p with stamps := { p.stamps with callbackInvoked := some now } }

/-- Completes a packet; none if it has been completed before. -/
def complete? (p : Packet) (now : Nat) (r : PacketResult) : Option Packet :=
  if p.completed then none
  else
    let p := { p with completed := true, stamps := { p.stamps with finished := some now } }
    match r with
    | .ok payload => some { p with response := some payload }
    | .error f => some { p with errorCode := some f.code }

/-- The result of a response frame: its error, if it has one, or else its payload. -/
def resultOf (r : ResponseFrame) : PacketResult :=
  match r.error with
  | some e => .error (.server e)
  | none => .ok r.payload

def description (p : Packet) : String :=
  Description.fields "Packet" [("xid", Description.number p.xid.toNat),
    ("op", p.op.description), ("request_len", Description.number p.request.size),
    ("completed", Description.boolean p.completed)]

theorem complete?_eq_none_iff (p : Packet) (now : Nat) (r : PacketResult) :
    p.complete? now r = none ↔ p.completed = true := by
  unfold complete?
  by_cases h : p.completed
  · simp [h]
  · cases r <;> simp [h]

theorem completed_of_complete? {p q : Packet} {now : Nat} {r : PacketResult}
    (h : p.complete? now r = some q) : q.completed = true := by
  unfold complete? at h
  by_cases hp : p.completed
  · simp [hp] at h
  · cases r <;> simp [hp] at h <;> rw [← h]

end Packet

/-- The number of a packet: its place among all packets that were accepted. -/
abbrev PacketId := Nat

/-- A packet whose callback has not run yet, and what the callback will be told. -/
structure Completion where
  packet : PacketId
  result : PacketResult

end ServiceDirectory
