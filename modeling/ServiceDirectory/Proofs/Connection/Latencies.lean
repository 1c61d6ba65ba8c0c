import ServiceDirectory.Proofs.Connection.Backlog
import ServiceDirectory.Proofs.Connection.Records
import ServiceDirectory.Proofs.Metrics.Recording

/-! What is measured of packets. When a callback was run, its packet is counted as well or badly
ended, and each stage that has both its stamps is counted once. So the counts can be told from what
became of the packets. -/
namespace ServiceDirectory

def Stamps.ends (s : Stamps) : PacketStage → Option Nat × Option Nat
  | .queue => (s.queued, s.sent)
  | .roundTrip => (s.sent, s.received)
  | .dispatch => (s.finished, s.callbackInvoked)
  | .total => (some s.created, s.callbackInvoked)

def Stamps.spans (s : Stamps) (stage : PacketStage) : Bool :=
  (s.ends stage).1.isSome && (s.ends stage).2.isSome

namespace LatencyRegistry

def note (r : LatencyRegistry) (stage : PacketStage) : Option Nat → Option Nat → LatencyRegistry
  | some a, some b => r.record stage (b - a)
  | _, _ => r

theorem count_note (r : LatencyRegistry) (stage t : PacketStage) (a b : Option Nat) :
    ((r.note stage a b).stages.get t).count =
      if t = stage ∧ a.isSome ∧ b.isSome then Histogram.increment (r.stages.get t).count
      else (r.stages.get t).count := by
  cases a <;> cases b <;>
    simp only [note, record, PerStage.get_update, Option.isSome_none, Option.isSome_some,
      Bool.false_eq_true, and_false, and_true, if_false]
  split <;> rfl

theorem completed_note (r : LatencyRegistry) (stage : PacketStage) (a b : Option Nat) :
    (r.note stage a b).completed = r.completed := by
  cases a <;> cases b <;> rfl

theorem failed_note (r : LatencyRegistry) (stage : PacketStage) (a b : Option Nat) :
    (r.note stage a b).failed = r.failed := by
  cases a <;> cases b <;> rfl

theorem stages_recordOutcome (r : LatencyRegistry) (success : Bool) :
    (r.recordOutcome success).stages = r.stages := by
  cases success <;> rfl

end LatencyRegistry

namespace Connection

theorem measure_eq (r : LatencyRegistry) (s : Stamps) (success : Bool) :
    measure r s success =
      (PacketStage.all.foldl (fun r stage => r.note stage (s.ends stage).1 (s.ends stage).2)
        r).recordOutcome success :=
  rfl

theorem count_measure (r : LatencyRegistry) (s : Stamps) (success : Bool) (t : PacketStage) :
    ((measure r s success).stages.get t).count =
      if s.spans t then Histogram.increment (r.stages.get t).count
      else (r.stages.get t).count := by
  rw [measure_eq, LatencyRegistry.stages_recordOutcome]
  cases t <;> simp [PacketStage.all, LatencyRegistry.count_note, Stamps.spans, Stamps.ends]

theorem completed_measure (r : LatencyRegistry) (s : Stamps) (success : Bool) :
    (measure r s success).completed =
      if success then Histogram.increment r.completed else r.completed := by
  rw [measure_eq]
  cases success <;>
    simp [PacketStage.all, LatencyRegistry.recordOutcome, LatencyRegistry.completed_note]

theorem failed_measure (r : LatencyRegistry) (s : Stamps) (success : Bool) :
    (measure r s success).failed =
      if success then r.failed else Histogram.increment r.failed := by
  rw [measure_eq]
  cases success <;>
    simp [PacketStage.all, LatencyRegistry.recordOutcome, LatencyRegistry.failed_note]

theorem latency_invoke {c : Connection} {k : Completion} {x : Packet}
    (here : c.packets[k.packet]? = some x) :
    (c.invoke k).latency =
      c.latency.map (measure · (x.afterCallback c.now).stamps k.result.isOk) := by
  simp only [invoke, here]
  cases k.result <;> rfl

theorem isSome_latency_invoke (c : Connection) (k : Completion) :
    (c.invoke k).latency.isSome = c.latency.isSome := by
  cases here : c.packets[k.packet]? with
  | none => simp only [invoke, here]
  | some x => rw [latency_invoke here, Option.isSome_map]

theorem Reachable.isSome_latency {settings : Settings} {roster : Roster} {c : Connection}
    (h : Reachable settings roster c) : c.latency.isSome = settings.collectsLatency := by
  induction h with
  | start =>
    rw [Connection.start]
    cases settings.collectsLatency <;> rfl
  | @step c c' a _ taken ih =>
    rcases (move_of_step taken).timed_cases with same | ⟨k, rest, ls, head, rfl⟩
    · exact (congrArg (·.2.isSome) same).trans ih
    · exact (isSome_latency_invoke _ k).trans ih

def comesBack (c : Connection) (p : PacketId) : Bool :=
  (c.packets[p]?).any (·.callback != .breaksOff)

/-- Whether a stage of a packet is counted, by what became of the packet. -/
def counts (c : Connection) (k : Completion) : PacketStage → Bool
  | .queue => c.writes.contains k.packet
  | .roundTrip => k.result.isAnswer
  | .dispatch | .total => c.comesBack k.packet

theorem isAnswer_of_isOk {r : PacketResult} (ok : r.isOk = true) : r.isAnswer = true := by
  cases r with
  | ok payload => rfl
  | error f => cases ok

theorem Answered.isAnswer {c : Connection} {k : Completion} (h : Answered c k) :
    k.result.isAnswer = true := by
  obtain ⟨f, -, -, -, -, -, result⟩ := h
  rw [result, isAnswer_resultOf]

theorem Answered.mem_writes {c : Connection} {k : Completion} (h : Answered c k) :
    k.packet ∈ c.writes := by
  obtain ⟨f, newer, older, history, ⟨between, oldest, written, -⟩, -⟩ := h
  rw [Connection.mem_writes, history, written]
  simp

section Counts

variable {settings : Settings} {roster : Roster} {c c' : Connection}

theorem Reachable.spans_eq (h : Reachable settings roster c) (few : c.sends < UInt32.size)
    {k : Completion} (hk : k ∈ c.ran) {x : Packet} (here : c.packets[k.packet]? = some x)
    (stage : PacketStage) : x.stamps.spans stage = c.counts k stage := by
  have stamped := h.stamped few here
  have told : k ∈ c.completions := List.mem_append_right _ hk
  have done := (h.custody few).completed_of_told told here
  have back : x.stamps.callbackInvoked.isSome = c.comesBack k.packet := by
    have ran : k.packet ∈ c.ran.map (·.packet) := List.mem_map_of_mem hk
    rw [Bool.eq_iff_iff, stamped.invoked, comesBack, here]
    simp [ran]
  cases stage with
  | queue =>
    rw [Bool.eq_iff_iff]
    simp [Stamps.spans, Stamps.ends, counts, stamped.queued, stamped.sent]
  | roundTrip =>
    have answered := stamped.received k told rfl
    simp only [Stamps.spans, Stamps.ends, counts, answered]
    cases answer : k.result.isAnswer with
    | false => exact Bool.and_false _
    | true =>
      rw [stamped.sent.mpr (h.answered few k told answer).mem_writes]
      rfl
  | dispatch => simp [Stamps.spans, Stamps.ends, counts, stamped.finished, done, back]
  | total => simp [Stamps.spans, Stamps.ends, counts, back]

theorem Reachable.countP_le (h : Reachable settings roster c) (few : c.sends < UInt32.size) :
    c.ran.countP (·.result.isOk) ≤ c.ran.countP (c.counts · .roundTrip) ∧
      c.ran.countP (c.counts · .roundTrip) ≤ c.ran.countP (c.counts · .queue) ∧
      c.ran.countP (c.counts · .queue) ≤ c.ran.length := by
  refine ⟨List.countP_mono_left fun k _ ok => isAnswer_of_isOk ok,
    List.countP_mono_left fun k hk answer => ?_, List.countP_le_length⟩
  have answered := h.answered few k (List.mem_append_right _ hk) answer
  exact List.contains_iff_mem.mpr answered.mem_writes

theorem Reachable.length_ran (h : Reachable settings roster c) (few : c.sends < UInt32.size) :
    c.ran.length + c.outstanding = c.acceptances.length + c.holders := by
  have balance := (h.balanced few).balance
  have accepted : c.acceptances.length = c.numbers.length := by
    rw [h.listed, List.length_reverse, List.length_range]
  omega

theorem Custody.nodup_ran (h : Custody [] c) : (c.ran.map (·.packet)).Nodup := by
  have once := (List.nodup_append.mp h.accounted.nodup).2.1
  rw [settled, List.map_append] at once
  exact (List.nodup_append.mp once).2.1

theorem Reachable.counts_eq_of_step {a : Action} (h : Reachable settings roster c)
    (taken : c.step a = some c') (few : c'.sends < UInt32.size) {k : Completion}
    (hk : k ∈ c.completions) (stage : PacketStage) : c'.counts k stage = c.counts k stage := by
  have m := move_of_step taken
  have few' := Nat.lt_of_le_of_lt m.sends_le few
  obtain ⟨x, here, done⟩ := (h.custody few').exists_packet hk
  obtain ⟨y, there, fate⟩ := m.fate (h.custody few') here
  have wrote := (h.stamped few' here).sent
  have wrote' := ((h.step a taken).stamped few there).sent
  cases stage with
  | queue =>
    rw [Bool.eq_iff_iff]
    simp only [counts, List.contains_iff_mem]
    rw [← wrote, ← wrote']
    obtain rfl | ⟨now, rfl⟩ := fate.of_completed done <;> rfl
  | roundTrip => rfl
  | dispatch | total =>
    simp only [counts, comesBack, here, there]
    obtain rfl | ⟨now, rfl⟩ := fate.of_completed done <;> rfl

end Counts

/-- What is measured agrees with what became of the packets whose callbacks were run, as far as a
counter can tell it. -/
structure Measured (c : Connection) (r : LatencyRegistry) : Prop where
  completed : r.completed = c.ran.countP (·.result.isOk) % Histogram.wordSize
  failed : r.failed = c.ran.countP (!·.result.isOk) % Histogram.wordSize
  stages : ∀ stage,
    (r.stages.get stage).count = c.ran.countP (c.counts · stage) % Histogram.wordSize

theorem increment_countP {α : Type} (p : α → Bool) (x : α) (xs : List α) :
    (if p x then Histogram.increment (xs.countP p % Histogram.wordSize)
      else xs.countP p % Histogram.wordSize) = (x :: xs).countP p % Histogram.wordSize := by
  rw [List.countP_cons]
  split
  · exact Histogram.increment_mod _
  · rfl

theorem Reachable.measured {settings : Settings} {roster : Roster} {c : Connection}
    (h : Reachable settings roster c) (few : c.sends < UInt32.size) {r : LatencyRegistry}
    (collected : c.latency = some r) : Measured c r := by
  induction h generalizing r with
  | start =>
    obtain rfl : {} = r := by
      rw [Connection.start] at collected
      split at collected
      · exact Option.some.inj collected
      · cases collected
    exact ⟨rfl, rfl, fun stage => by cases stage <;> rfl⟩
  | @step c c' a reached taken ih =>
    have m := move_of_step taken
    have few' := Nat.lt_of_le_of_lt m.sends_le few
    have still (stage : PacketStage) :
        c.ran.countP (c'.counts · stage) = c.ran.countP (c.counts · stage) := by
      refine List.countP_congr fun k hk => ?_
      rw [reached.counts_eq_of_step taken few (List.mem_append_right _ hk)]
    rcases m.timed_cases with same | ⟨k, rest, ls, head, delivered⟩
    · have ran : c'.ran = c.ran := congrArg Prod.fst same
      have latency : c'.latency = c.latency := congrArg Prod.snd same
      obtain ⟨completed, failed, stages⟩ := ih few' (latency ▸ collected)
      rw [← ran] at completed failed still
      exact ⟨completed, failed,
        fun stage => (stages stage).trans (by rw [still, ran])⟩
    · -- One callback was run, and its packet is measured as it is then.
      have told : k ∈ c.completions := mem_completions_of_head head
      obtain ⟨x, here, -⟩ := (reached.custody few').exists_packet told
      have ran : c'.ran = k :: c.ran := delivered ▸ c.ran_delivered k rest ls
      have there : c'.packets[k.packet]? = some (x.afterCallback c.now) := by
        rw [delivered, getElem?_invoke, if_pos rfl]
        exact congrArg (Option.map _) here
      have latency : c'.latency =
          c.latency.map (measure · (x.afterCallback c.now).stamps k.result.isOk) := by
        rw [delivered]
        exact latency_invoke here
      obtain ⟨r₀, before, rfl⟩ := Option.map_eq_some_iff.mp (latency ▸ collected)
      obtain ⟨completed, failed, stages⟩ := ih few' before
      have own : k ∈ c'.ran := ran ▸ List.mem_cons_self
      refine ⟨?_, ?_, fun stage => ?_⟩
      · rw [completed_measure, completed, ran]
        exact increment_countP (·.result.isOk) k c.ran
      · rw [failed_measure, failed, ran, ← increment_countP]
        cases k.result.isOk <;> rfl
      · rw [count_measure, (reached.step a taken).spans_eq few own there stage, stages, ran,
          ← still]
        exact increment_countP (c'.counts · stage) k c.ran

/-- While the numbers do not run out, what a connection tells about its latencies agrees with what
became of the packets. Every packet whose callback was run is counted once as well or badly ended:
these are the accepted ones without those that are outstanding, among which are the sends that have
a place and no packet yet. Well ended are those whose callbacks were told a payload; a round trip is
counted for those that a response ended, a time in the queue for those that were written, and the
other two times for those whose callbacks came back. -/
theorem Reachable.latencies_counted {settings : Settings} {roster : Roster} {c : Connection}
    (h : Reachable settings roster c) (collects : settings.collectsLatency = true)
    (few : c.sends < UInt32.size) :
    ∃ s, c.latency.map (·.snapshot) = some s ∧
      (s.completed + s.failed = c.ran.length ∧ (c.ran.map (·.packet)).Nodup ∧
        s.completed + s.failed + c.outstanding = c.acceptances.length + c.holders ∧
        (c.senders = [] → s.completed + s.failed = c.acceptances.length - c.outstanding)) ∧
      s.completed = c.ran.countP (·.result.isOk) ∧
      (s.stages.roundTrip.count = c.ran.countP (·.result.isAnswer) ∧
        ∀ k ∈ c.ran, k.result.isAnswer = true ↔ Answered c k) ∧
      s.stages.queue.count = c.ran.countP (c.writes.contains ·.packet) ∧
      (s.stages.dispatch.count = c.ran.countP (c.comesBack ·.packet) ∧
        s.stages.total.count = c.ran.countP (c.comesBack ·.packet)) ∧
      s.completed ≤ s.stages.roundTrip.count ∧
      s.stages.roundTrip.count ≤ s.stages.queue.count ∧
      s.stages.queue.count ≤ s.completed + s.failed := by
  obtain ⟨r, collected⟩ : ∃ r, c.latency = some r :=
    Option.isSome_iff_exists.mp (h.isSome_latency.trans collects)
  have told := h.length_ran few
  have small {p : Completion → Bool} :
      c.ran.countP p % Histogram.wordSize = c.ran.countP p := by
    have part : c.ran.countP p ≤ c.ran.length := List.countP_le_length
    have taken := (h.custody few).length_ran_le
    have places := h.places_le.1
    have words : UInt32.size ≤ Histogram.wordSize := by decide
    exact Nat.mod_eq_of_lt (by omega)
  obtain ⟨completed, failed, stages⟩ := h.measured few collected
  simp only [small] at completed failed stages
  have count (stage : PacketStage) : ((r.snapshot.stages.get stage).count) =
      c.ran.countP (c.counts · stage) := by
    rw [LatencyRegistry.snapshot, PerStage.get_map, Histogram.count_summary, stages]
  have all : r.completed + r.failed = c.ran.length := by
    rw [completed, failed, List.length_eq_countP_add_countP (·.result.isOk)]
    simp only [Bool.not_eq_true, Bool.decide_eq_false]
  have accepted : r.completed + r.failed + c.outstanding = c.acceptances.length + c.holders :=
    all ▸ told
  have settled : c.senders = [] →
      r.completed + r.failed = c.acceptances.length - c.outstanding := by
    intro none
    have nobody : c.holders = 0 := by rw [holders, none]; rfl
    omega
  have answered : ∀ k ∈ c.ran, k.result.isAnswer = true ↔ Answered c k :=
    fun k hk => ⟨h.answered few k (List.mem_append_right _ hk), Answered.isAnswer⟩
  obtain ⟨least, middle, most⟩ := h.countP_le few
  rw [← count, ← completed] at least
  rw [← count, ← count] at middle
  rw [← count, ← all] at most
  exact ⟨r.snapshot, by rw [collected]; rfl,
    ⟨all, (h.custody few).nodup_ran, accepted, settled⟩, completed,
    ⟨count .roundTrip, answered⟩, count .queue, ⟨count .dispatch, count .total⟩, least, middle,
    most⟩

/-- Four packets: one is answered with a payload; the callback of the next breaks off on an error of
the server; the third is written and the last is not when the connection is closed. -/
theorem latencies_counted_closed : ∃ (c : Connection) (s : LatencySnapshot),
    Reachable { collectsLatency := true }
      { endpoints := [⟨"localhost", 7000⟩], nonempty := by simp } c ∧
    c.sends < UInt32.size ∧ c.latency.map (·.snapshot) = some s ∧
    s.completed = 1 ∧ s.failed = 3 ∧ s.stages.queue.count = 3 ∧ s.stages.roundTrip.count = 2 ∧
    s.stages.dispatch.count = 3 ∧ s.stages.total.count = 3 := by
  let connect : List Action := [.callConnect 1000, .enter, .seek, .seek, .seek,
    .answer (.ok (.connected { sessionId := 7, sessionTimeoutMs := 0 })), .deliver, .deliver]
  let send (callback : Callback) : List Action :=
    [.beginSend .getAllServices .empty callback, .reserve 0, .number 0, .enqueue 0]
  let answer : List Action := [.write .done, .write .done, .write .done,
    .receive (.ok (.response { xid := 1 })),
    .receive (.ok (.response { xid := 2, error := some default }))]
  let close : List Action := [.callClose, .hangUp true, .enter] ++ List.replicate 6 .deliver
  have outcome : ((start { collectsLatency := true }
      { endpoints := [⟨"localhost", 7000⟩], nonempty := by simp }).run
      (connect ++ [.returns, .breaksOff, .wakes, .returns].flatMap send ++ answer ++ close)).map
      (fun c => (c.sends, c.ran.length, c.ran.countP (·.result.isOk),
        c.ran.countP (·.result.isAnswer), c.ran.countP (c.writes.contains ·.packet),
        c.ran.countP (c.comesBack ·.packet))) = some (4, 4, 1, 2, 3, 3) := by decide +kernel
  obtain ⟨c, run, facts⟩ := Option.map_eq_some_iff.mp outcome
  simp only [Prod.mk.injEq] at facts
  obtain ⟨sends, all, ok, answered, written, back⟩ := facts
  have few : c.sends < UInt32.size := by rw [sends]; decide
  have reached := Reachable.start.run run
  obtain ⟨s, snapshot, ⟨total, -⟩, completed, ⟨roundTrip, -⟩, queue, ⟨dispatch, whole⟩, -⟩ :=
    reached.latencies_counted rfl few
  refine ⟨c, s, reached, few, snapshot, completed.trans ok, ?_, queue.trans written,
    roundTrip.trans answered, dispatch.trans back, whole.trans back⟩
  rw [all, completed, ok] at total
  omega

end Connection
end ServiceDirectory
