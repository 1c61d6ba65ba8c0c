import ServiceDirectory.Json.Record
import ServiceDirectory.Metrics.Registry
import ServiceDirectory.Settings

/-! The JSON forms of latency reports. -/
namespace ServiceDirectory

open Json

/-- A number of 64 bits. -/
def wordOfJson? (j : Json) : Option Nat := j.natural? Histogram.maxWord

def PacketStage.toJson (s : PacketStage) : Json := text s.name

def PacketStage.ofJson? (j : Json) : Option PacketStage := choice? false PacketStage.named j

namespace StageLatency

def toJson (l : StageLatency) : Json :=
  record [("count", natural l.count), ("avg_us", natural l.average), ("p50_us", natural l.p50),
    ("p95_us", natural l.p95), ("p99_us", natural l.p99)]

def ofJson? (j : Json) : Option StageLatency := do
  let r ← Record.ofJson? ["count", "avg_us", "p50_us", "p95_us", "p99_us"] j
  return ⟨← r.required? "count" wordOfJson?, ← r.required? "avg_us" wordOfJson?,
    ← r.required? "p50_us" wordOfJson?, ← r.required? "p95_us" wordOfJson?,
    ← r.required? "p99_us" wordOfJson?⟩

end StageLatency

/-- A latency report as it is stored. It may leave out stages, which then count as empty. -/
structure LatencyReport where
  completed : Nat
  failed : Nat
  stages : List (PacketStage × StageLatency)

namespace LatencyReport

def ofSnapshot (s : LatencySnapshot) : LatencyReport :=
  ⟨s.completed, s.failed, PacketStage.all.map fun stage => (stage, s.stages.get stage)⟩

/-- The last entry of a stage counts. -/
def stage (r : LatencyReport) (s : PacketStage) : StageLatency :=
  (r.stages.reverse.lookup s).getD {}

def toJson (r : LatencyReport) : Json :=
  let present := PacketStage.all.filter fun s => r.stages.any (·.1 == s)
  record [("completed", natural r.completed), ("failed", natural r.failed),
    ("stages", record (present.map fun s => (s.name, (r.stage s).toJson)))]

def stagesOfJson? : Json → Option (List (PacketStage × StageLatency))
  | .object members => members.mapM fun (k, j) => do
    return (← PacketStage.ofJson? (.string k), ← StageLatency.ofJson? j)
  | _ => none

def ofJson? (j : Json) : Option LatencyReport := do
  let r ← Record.ofJson? ["completed", "failed", "stages"] j
  return ⟨← r.required? "completed" wordOfJson?, ← r.required? "failed" wordOfJson?,
    ← r.required? "stages" stagesOfJson?⟩

end LatencyReport
end ServiceDirectory
