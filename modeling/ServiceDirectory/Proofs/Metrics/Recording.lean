import Mathlib.Algebra.GroupWithZero.Nat
import Mathlib.Algebra.Order.BigOperators.Group.List
import Mathlib.Algebra.Order.Group.Nat
import Mathlib.Data.List.Count
import Mathlib.Data.List.Induction
import ServiceDirectory.Metrics.Registry

/-! What histograms and registries hold: how many samples there were of each bin and of each stage,
and the sum of the samples, but nothing of the order in which they came. -/
namespace ServiceDirectory

namespace Histogram

def ofSamples (samples : List Nat) : Histogram := samples.foldl record {}

theorem ofSamples_concat (samples : List Nat) (us : Nat) :
    ofSamples (samples ++ [us]) = (ofSamples samples).record us := by
  rw [ofSamples, List.foldl_append]
  rfl

theorem increment_mod (n : Nat) : increment (n % wordSize) = (n + 1) % wordSize :=
  Nat.mod_add_mod n wordSize 1

theorem count_ofSamples (samples : List Nat) :
    (ofSamples samples).count = samples.length % wordSize := by
  induction samples using List.reverseRecOn with
  | nil => rfl
  | append_singleton samples us ih =>
    rw [ofSamples_concat, record_count, ih, increment_mod, List.length_append,
      List.length_singleton]

theorem total_ofSamples (samples : List Nat) :
    (ofSamples samples).total = samples.sum % wordSize := by
  induction samples using List.reverseRecOn with
  | nil => rfl
  | append_singleton samples us ih =>
    rw [ofSamples_concat, record_total, ih, List.sum_append, List.sum_singleton, Nat.mod_add_mod]

theorem bins_ofSamples (samples : List Nat) :
    (ofSamples samples).bins =
      (List.range binCount).map fun b => samples.countP (bin · = b) % wordSize := by
  induction samples using List.reverseRecOn with
  | nil => rfl
  | append_singleton samples us ih =>
    rw [ofSamples_concat, record, ih]
    refine List.ext_getElem (by simp) fun b _ _ => ?_
    simp only [List.getElem_modify, List.getElem_map, List.getElem_range, List.countP_append,
      List.countP_singleton, decide_eq_true_eq]
    split
    · exact increment_mod _
    · rfl

def preceding (samples : List Nat) (b : Nat) : Nat := samples.countP (bin · < b)

theorem preceding_succ (samples : List Nat) (b : Nat) :
    preceding samples (b + 1) = preceding samples b + samples.countP (bin · = b) := by
  unfold preceding
  induction samples with
  | nil => rfl
  | cons us samples ih =>
    simp only [List.countP_cons, ih, decide_eq_true_eq]
    split_ifs <;> omega

theorem preceding_binCount (samples : List Nat) : preceding samples binCount = samples.length :=
  List.countP_eq_length.mpr fun us _ => decide_eq_true (bin_lt us)

section

variable {samples : List Nat} (few : samples.length < wordSize)
include few

theorem bins_ofSamples_of_few :
    (ofSamples samples).bins =
      (List.range binCount).map fun b => samples.countP (bin · = b) := by
  rw [bins_ofSamples]
  refine List.map_congr_left fun b _ => Nat.mod_eq_of_lt ?_
  exact Nat.lt_of_le_of_lt List.countP_le_length few

theorem sum_take_bins_ofSamples {b : Nat} (inside : b ≤ binCount) :
    ((ofSamples samples).bins.take b).sum = preceding samples b := by
  rw [bins_ofSamples_of_few few, ← List.map_take, List.take_range, Nat.min_eq_left inside]
  clear inside
  induction b with
  | zero => simp [preceding]
  | succ b ih =>
    rw [List.range_succ, List.map_append, List.sum_append, ih, List.map_singleton,
      List.sum_singleton, preceding_succ]

theorem sum_bins_ofSamples : (ofSamples samples).bins.sum = samples.length := by
  have all := sum_take_bins_ofSamples few (Nat.le_refl binCount)
  have whole : (ofSamples samples).bins.length = binCount := by simp [bins_ofSamples]
  rwa [← whole, List.take_length, whole, preceding_binCount] at all

theorem average_ofSamples :
    (ofSamples samples).summary.average = samples.sum % wordSize / samples.length := by
  rw [average_summary, total_ofSamples, count_ofSamples, Nat.mod_eq_of_lt few]

end

theorem ofSamples_perm {samples samples' : List Nat} (same : samples.Perm samples') :
    ofSamples samples = ofSamples samples' := by
  have whole (samples : List Nat) : ofSamples samples =
      ⟨(List.range binCount).map fun b => samples.countP (bin · = b) % wordSize,
        samples.sum % wordSize, samples.length % wordSize⟩ := by
    rw [← bins_ofSamples, ← total_ofSamples, ← count_ofSamples]
  simp only [whole, same.countP_eq, same.sum_eq, same.length_eq]

theorem average_between {samples : List Nat} (few : samples.length < wordSize)
    (small : samples.sum < wordSize) :
    (∀ least ∈ samples.min?, least ≤ (ofSamples samples).summary.average) ∧
      ∀ greatest ∈ samples.max?, (ofSamples samples).summary.average ≤ greatest := by
  rw [average_ofSamples few, Nat.mod_eq_of_lt small]
  constructor
  · intro least h
    obtain ⟨mem, bound⟩ := List.min?_eq_some_iff.mp h
    have some_sample : 0 < samples.length := List.length_pos_of_mem mem
    rw [Nat.le_div_iff_mul_le some_sample, Nat.mul_comm]
    exact List.card_nsmul_le_sum samples least bound
  · intro greatest h
    obtain ⟨-, bound⟩ := List.max?_eq_some_iff.mp h
    exact Nat.div_le_of_le_mul (List.sum_le_card_nsmul samples greatest bound)

end Histogram

/-- What a registry is told: a sample of a stage, by its length of time, or how a packet ended. -/
inductive Recording where
  | sample (stage : PacketStage) (elapsed : Nat)
  | outcome (success : Bool)
  deriving DecidableEq

namespace Recording

def sample? (stage : PacketStage) : Recording → Option Nat
  | sample s elapsed => if stage = s then some (Time.toMicros elapsed) else none
  | outcome _ => none

def samples (stage : PacketStage) (told : List Recording) : List Nat :=
  told.filterMap (sample? stage)

end Recording

namespace PerStage

theorem ext_get {α : Type} {p q : PerStage α} (same : ∀ s, p.get s = q.get s) : p = q := by
  obtain ⟨_, _, _, _⟩ := p
  obtain ⟨_, _, _, _⟩ := q
  have queue := same .queue
  have roundTrip := same .roundTrip
  have dispatch := same .dispatch
  have total := same .total
  simp_all [get]

end PerStage

namespace LatencyRegistry

def take (r : LatencyRegistry) : Recording → LatencyRegistry
  | .sample stage elapsed => r.record stage elapsed
  | .outcome success => r.recordOutcome success

def ofRecordings (told : List Recording) : LatencyRegistry := told.foldl take {}

theorem ofRecordings_concat (told : List Recording) (o : Recording) :
    ofRecordings (told ++ [o]) = (ofRecordings told).take o := by
  rw [ofRecordings, List.foldl_append]
  rfl

theorem get_take (r : LatencyRegistry) (o : Recording) (stage : PacketStage) :
    (r.take o).stages.get stage =
      (o.sample? stage).elim (r.stages.get stage) (r.stages.get stage).record := by
  cases o with
  | sample s elapsed =>
    simp only [take, record, PerStage.get_update, Recording.sample?]
    split <;> rfl
  | outcome success => cases success <;> rfl

theorem get_ofRecordings (told : List Recording) (stage : PacketStage) :
    (ofRecordings told).stages.get stage = .ofSamples (Recording.samples stage told) := by
  induction told using List.reverseRecOn with
  | nil => cases stage <;> rfl
  | append_singleton told o ih =>
    rw [ofRecordings_concat, get_take, ih, Recording.samples, Recording.samples,
      List.filterMap_append]
    cases sample : o.sample? stage with
    | none => rw [List.filterMap_cons_none sample, List.filterMap_nil, List.append_nil]; rfl
    | some us =>
      rw [List.filterMap_cons_some sample, List.filterMap_nil, Histogram.ofSamples_concat]
      rfl

theorem outcomes_ofRecordings (told : List Recording) :
    (ofRecordings told).completed = told.count (.outcome true) % Histogram.wordSize ∧
      (ofRecordings told).failed = told.count (.outcome false) % Histogram.wordSize := by
  induction told using List.reverseRecOn with
  | nil => exact ⟨rfl, rfl⟩
  | append_singleton told o ih =>
    obtain ⟨completed, failed⟩ := ih
    rw [ofRecordings_concat, List.count_append, List.count_append]
    rcases o with _ | (_ | _)
    · exact ⟨completed, failed⟩
    · exact ⟨completed, (congrArg Histogram.increment failed).trans (Histogram.increment_mod _)⟩
    · exact ⟨(congrArg Histogram.increment completed).trans (Histogram.increment_mod _), failed⟩

theorem ofRecordings_perm {told told' : List Recording} (same : told.Perm told') :
    ofRecordings told = ofRecordings told' := by
  have stages : (ofRecordings told).stages = (ofRecordings told').stages :=
    PerStage.ext_get fun s => by
      rw [get_ofRecordings, get_ofRecordings]
      exact Histogram.ofSamples_perm (same.filterMap _)
  have completed : (ofRecordings told).completed = (ofRecordings told').completed := by
    rw [(outcomes_ofRecordings _).1, (outcomes_ofRecordings _).1, same.count_eq]
  have failed : (ofRecordings told).failed = (ofRecordings told').failed := by
    rw [(outcomes_ofRecordings _).2, (outcomes_ofRecordings _).2, same.count_eq]
  have eta (r : LatencyRegistry) : r = ⟨r.stages, r.completed, r.failed⟩ := rfl
  rw [eta (ofRecordings told), stages, completed, failed]

/-- A snapshot tells what the registry was told, whatever the order. As long as a counter can tell
how much that was, these are, of each stage, how many samples there were, which are also all that
its bins count, and their average, which lies between the least and the greatest of them unless
their sum is beyond the range of the words; and how many packets ended well and how many did not. A
sample of one stage changes nothing of another one. -/
theorem snapshot_of_recordings (told : List Recording) :
    (∀ told', told.Perm told' → (ofRecordings told).snapshot = (ofRecordings told').snapshot) ∧
    (told.length < Histogram.wordSize →
      (∀ stage,
        let samples := Recording.samples stage told
        let latency := (ofRecordings told).snapshot.stages.get stage
        latency.count = samples.length ∧
        ((ofRecordings told).stages.get stage).bins.sum = samples.length ∧
        latency.average = samples.sum % Histogram.wordSize / samples.length ∧
        (samples.sum < Histogram.wordSize →
          (∀ least ∈ samples.min?, least ≤ latency.average) ∧
          ∀ greatest ∈ samples.max?, latency.average ≤ greatest)) ∧
      (ofRecordings told).snapshot.completed = told.count (.outcome true) ∧
      (ofRecordings told).snapshot.failed = told.count (.outcome false)) ∧
    ∀ stage other elapsed, other ≠ stage →
      (ofRecordings (told ++ [.sample stage elapsed])).stages.get other =
        (ofRecordings told).stages.get other ∧
      (ofRecordings (told ++ [.sample stage elapsed])).snapshot.stages.get other =
        (ofRecordings told).snapshot.stages.get other := by
  have latency (told : List Recording) (stage : PacketStage) :
      (ofRecordings told).snapshot.stages.get stage =
        (Histogram.ofSamples (Recording.samples stage told)).summary := by
    rw [snapshot, PerStage.get_map, get_ofRecordings]
  refine ⟨fun told' same => ?_, fun few => ⟨fun stage => ?_, ?_, ?_⟩,
    fun stage other elapsed ne => ?_⟩
  · rw [ofRecordings_perm same]
  · intro samples
    have few : samples.length < Histogram.wordSize :=
      Nat.lt_of_le_of_lt (List.length_filterMap_le _ told) few
    rw [latency, get_ofRecordings]
    refine ⟨?_, Histogram.sum_bins_ofSamples few, Histogram.average_ofSamples few,
      Histogram.average_between few⟩
    rw [Histogram.count_summary, Histogram.count_ofSamples, Nat.mod_eq_of_lt few]
  · exact (outcomes_ofRecordings told).1.trans
      (Nat.mod_eq_of_lt (Nat.lt_of_le_of_lt List.count_le_length few))
  · exact (outcomes_ofRecordings told).2.trans
      (Nat.mod_eq_of_lt (Nat.lt_of_le_of_lt List.count_le_length few))
  · have kept : (ofRecordings (told ++ [.sample stage elapsed])).stages.get other =
        (ofRecordings told).stages.get other := by
      rw [ofRecordings_concat]
      exact record_stage_ne _ ne elapsed
    rw [snapshot, snapshot, PerStage.get_map, PerStage.get_map, kept]
    exact ⟨rfl, rfl⟩

/-- Two samples of one stage and one of another, told in two orders. -/
theorem snapshot_of_recordings_reordered :
    let told : List Recording :=
      [.sample .queue 15000, .outcome true, .sample .total 2000000, .sample .queue 5999]
    let told' : List Recording :=
      [.sample .total 2000000, .sample .queue 5999, .sample .queue 15000, .outcome true]
    let latency := (ofRecordings told).snapshot.stages.get .queue
    (ofRecordings told).snapshot = (ofRecordings told').snapshot ∧
    latency.count = 2 ∧ ((ofRecordings told).stages.get .queue).bins.sum = 2 ∧
    latency.average = 10 ∧ (5 ≤ latency.average ∧ latency.average ≤ 15) ∧
    (ofRecordings told).snapshot.completed = 1 ∧ (ofRecordings told).snapshot.failed = 0 ∧
    (ofRecordings (told ++ [.sample .queue 7000])).stages.get .total =
      (ofRecordings told).stages.get .total := by
  intro told told' latency
  have same : told.Perm told' := by decide
  have small : (Recording.samples .queue told).sum < Histogram.wordSize := by decide
  obtain ⟨reordered, tells, apart⟩ := snapshot_of_recordings told
  obtain ⟨stages, completed, failed⟩ := tells (by decide)
  obtain ⟨count, bins, average, between⟩ := stages .queue
  obtain ⟨least, greatest⟩ := between small
  exact ⟨reordered told' same, count, bins, average.trans (by decide),
    ⟨least 5 (by decide), greatest 15 (by decide)⟩, completed, failed,
    (apart .queue .total 7000 (by decide)).1⟩

/-- The average of samples whose sum is beyond the range of the words lies below all of them. -/
example : (Histogram.ofSamples [Histogram.maxWord, Histogram.maxWord]).summary.average <
    Histogram.maxWord := by
  decide

end LatencyRegistry
end ServiceDirectory
