import ServiceDirectory.Metrics.Histogram
import ServiceDirectory.Time

/-! The latencies of a connection: one histogram for each stage of a packet, and how many packets
ended well and how many did not, modulo 2 ^ 64 like all that is counted here. -/
namespace ServiceDirectory

/-- A stretch of a packet's life. -/
inductive PacketStage where
  /-- From its queueing to its writing. -/
  | queue
  /-- From its writing to its response. -/
  | roundTrip
  /-- From its completion to the end of its callback. -/
  | dispatch
  /-- From its creation to the end of its callback. -/
  | total
  deriving DecidableEq, Inhabited

namespace PacketStage

def all : List PacketStage := [queue, roundTrip, dispatch, total]

def name : PacketStage → String
  | queue => "queue"
  | roundTrip => "round_trip"
  | dispatch => "dispatch"
  | total => "total"

def named : List (String × PacketStage) := all.map fun s => (s.name, s)

end PacketStage

/-- One value for each stage. -/
structure PerStage (α : Type) where
  queue : α
  roundTrip : α
  dispatch : α
  total : α
  deriving DecidableEq, Inhabited

namespace PerStage

variable {α β : Type}

def get (p : PerStage α) : PacketStage → α
  | .queue => p.queue
  | .roundTrip => p.roundTrip
  | .dispatch => p.dispatch
  | .total => p.total

def update (p : PerStage α) (s : PacketStage) (f : α → α) : PerStage α :=
  match s with
  | .queue => { p with queue := f p.queue }
  | .roundTrip => { p with roundTrip := f p.roundTrip }
  | .dispatch => { p with dispatch := f p.dispatch }
  | .total => { p with total := f p.total }

def map (f : α → β) (p : PerStage α) : PerStage β :=
  ⟨f p.queue, f p.roundTrip, f p.dispatch, f p.total⟩

theorem get_update (p : PerStage α) (s t : PacketStage) (f : α → α) :
    (p.update s f).get t = if t = s then f (p.get t) else p.get t := by
  cases s <;> cases t <;> rfl

theorem get_map (f : α → β) (p : PerStage α) (s : PacketStage) :
    (p.map f).get s = f (p.get s) := by
  cases s <;> rfl

end PerStage

structure LatencyRegistry where
  stages : PerStage Histogram := ⟨{}, {}, {}, {}⟩
  completed : Nat := 0
  failed : Nat := 0
  deriving DecidableEq

/-- A view of a registry at one time. -/
structure LatencySnapshot where
  completed : Nat
  failed : Nat
  stages : PerStage StageLatency
  deriving DecidableEq, Inhabited

namespace LatencyRegistry

/-- Records one sample of a stage, by its whole microseconds. -/
def record (r : LatencyRegistry) (stage : PacketStage) (elapsed : Nat) : LatencyRegistry :=
  { r with stages := r.stages.update stage (·.record (Time.toMicros elapsed)) }

/-- Counts a packet that ended. -/
def recordOutcome (r : LatencyRegistry) (success : Bool) : LatencyRegistry :=
  if success then { r with completed := Histogram.increment r.completed }
  else { r with failed := Histogram.increment r.failed }

def snapshot (r : LatencyRegistry) : LatencySnapshot :=
  ⟨r.completed, r.failed, r.stages.map (·.summary)⟩

theorem record_stage_ne (r : LatencyRegistry) {s t : PacketStage} (h : t ≠ s) (elapsed : Nat) :
    (r.record s elapsed).stages.get t = r.stages.get t := by
  simp [record, PerStage.get_update, h]

end LatencyRegistry
end ServiceDirectory
