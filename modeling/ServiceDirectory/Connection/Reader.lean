import ServiceDirectory.Codec.Bytes
import ServiceDirectory.Framing

/-! The reader of a session. It takes one message after the other off the stream and hands the
frames over. A message that is no frame is passed over; any other failure is handed over as well,
and then the reader stops, as it does when nobody takes what it hands over. -/
namespace ServiceDirectory

/-- Reads a message and decodes it. -/
def ServerFrame.receive (i : Inlet) : Except Failure ServerFrame × Inlet :=
  match Framing.receive i with
  | (.error f, i) => (.error f, i)
  | (.ok b, i) => (ServerFrame.decode b, i)

structure FrameReader where
  inlet : Inlet
  stopped : Bool := false
  /-- What has been handed over, in this order. -/
  handed : List (Except Failure ServerFrame) := []

namespace FrameReader

/-- Hands a result over, if anybody takes it, and stops unless it is a frame. -/
def handOver (r : FrameReader) (result : Except Failure ServerFrame) (heeded : Bool) :
    FrameReader :=
  if heeded then
    { r with
      handed := r.handed ++ [result]
      stopped := match result with
        | .ok _ => false
        | .error _ => true }
  else { r with stopped := true }

/-- Reads the next message. -/
def turn (r : FrameReader) (heeded : Bool) : FrameReader :=
  if r.stopped then r
  else
    match ServerFrame.receive r.inlet with
    | (.error (.malformed _), inlet) => { r with inlet }
    | (result, inlet) => { r with inlet }.handOver result heeded

/-- Reads one message after the other; for each there is whether its result is taken. -/
def run (r : FrameReader) (heeded : List Bool) : FrameReader := heeded.foldl turn r

end FrameReader
end ServiceDirectory
