import ServiceDirectory.Proofs.Connection.Conservation
import ServiceDirectory.Proofs.Connection.Waits

/-! Why packets are completed. When a session breaks off, the packets that wait for a response on it
are failed with its failure, and all that are not written to the end are kept for the next session.
Once there has been a session, a packet is completed by a response, with the failure of a session
that it was written on, because it is too long, or because the connection is closed. -/
namespace ServiceDirectory.Connection

theorem queued_failAll {hand ps : List PacketId} {c : Connection}
    (h : Accounted (ps ++ hand) c) (f : Failure) :
    (c.failAll ps f).queued = c.queued ++ ps.map fun p => ⟨p, .error f⟩ := by
  induction ps generalizing c with
  | nil => simp [failAll]
  | cons p ps ih =>
    obtain ⟨packet, hp, new⟩ := h.incomplete (p := p) List.mem_cons_self
    obtain ⟨done, -, -, told⟩ := complete_eq hp new (.error f)
    have one : (c.complete p (.error f)).queued = c.queued ++ [⟨p, .error f⟩] := by
      rw [told]
      simp [queued, publish, record, Dispatch.completion?]
    have rest := ih (Accounted.complete h (.error f))
    rw [one, List.append_assoc] at rest
    exact rest

theorem Halts.custody {b c : Connection} (h : Halts c b) (custody : Custody [] c) :
    Custody [] b := by
  cases h with
  | quiet q => exact custody.quiet q
  | putBack takes packet fits =>
    exact (custody.takes takes).again (List.perm_append_singleton _ _)

theorem Halts.completions_of_lost {b c c' : Connection} (h : Halts c b) (custody : Custody [] c)
    {f : Failure} (q : Quiet ((b.record (.lost f)).failPending f) c') :
    c'.queued = c.queued ++ (c.pending.map (·.2)).map (fun p => ⟨p, .error f⟩) ∧
      c'.ran = c.ran := by
  have lost : Custody [] (b.record (.lost f)) := (h.custody custody).record rfl
  have moved : (b.record (.lost f)).waiting.Perm
      (b.pending.map (·.2) ++ (b.outgoing ++ b.retry)) := List.perm_append_comm
  constructor
  · rw [q.queued, ← h.queued, ← h.pending]
    exact queued_failAll (lost.accounted.perm moved) f
  · rw [q.ran, ← h.ran]
    exact (completes_failAll _ _ _).ran

def Stance.begun : Stance → Bool
  | .free => false
  | .seeking resumes _ => resumes
  | .driving _ | .finished => true

theorem Turn.begun {c c' : Connection} (t : Turn c c') (h : c.stance.begun = true) :
    c'.stance.begun = true := by
  cases t with
  | steady q => exact q.stance ▸ h
  | sought idle alive timeout =>
    rw [stance, idle] at h
    cases h
  | attempted seeking q =>
    rw [q.stance]
    exact h
  | rejected seeking before =>
    have kept : (Connection.transition _ .authFailed).stance = c.stance :=
      (congrArg Carrier.stance (carrier_transition _ _)).trans before.stance
    exact kept ▸ h
  | opened seeking uses after =>
    rw [after.stance]
    rfl
  | lost driving before =>
    rw [stance_sessionFailed]
    rfl
  | expired driving before =>
    rw [stance_sessionFailed]
    rfl
  | gaveUp seeking first before =>
    rw [stance, seeking] at h
    exact absurd (h.symm.trans first) (by simp)
  | withdrew seeking first before after =>
    rw [stance, seeking] at h
    exact absurd (h.symm.trans first) (by simp)
  | closedOut before after drained =>
    rw [after.stance]
    rfl

/-- What completes a packet in a step of a connection that has had a session. -/
inductive Cause (c c' : Connection) (k : Completion) : Prop where
  /-- The first response that arrived since its request was written on this session. -/
  | answered {r : ResponseFrame} (number : c.numbers[k.packet]? = some r.xid)
    (awaits : Awaits c.history r.xid k.packet)
    (arrived : .received (.response r) :: c.history <:+ c'.history)
    (result : k.result = Packet.resultOf r)
  /-- The end of the session that its request was written on. -/
  | lost {f : Failure} (awaits : Expects c k.packet) (ends : c'.losses = f :: c.losses)
    (result : k.result = .error f)
  /-- Its frame is longer than a frame may be. -/
  | tooLarge {packet : Packet} (here : c.packets[k.packet]? = some packet)
    (large : Framing.maxSize < packet.frame.encode.size)
    (result : k.result = .error (Framing.tooLarge packet.frame.encode.size))
  /-- The connection is closed, since its caller wants it or no other session was found. -/
  | closed (open_ : c.status ≠ .closed) (closed : c'.status = .closed)
    (cause : c.shutdown = true ∨ c.exhausted) (result : k.result = .error .connectionClosed)

theorem Origin.cause {settings : Settings} {roster : Roster} {c c' : Connection} {k : Completion}
    (o : Origin c c' k) (h : Reachable settings roster c) (few : c.sends < UInt32.size)
    (begun : c.stance.begun = true) : Cause c c' k := by
  have custody := h.custody few
  cases o with
  | answered waits arrived result =>
    exact .answered (custody.keyed _ waits) (h.attends _ waits) arrived result
  | @tooLarge packet here large result kept =>
    have size : packet.frame.encode.size = packet.frameSize := packet.size_encode_frame
    exact .tooLarge here (size ▸ of_decide_eq_true large) (size ▸ result)
  | lost waits ends noted result => exact .lost (h.expects few waits) noted result
  | gaveUp seeking first own result kept =>
    rw [stance, seeking] at begun
    exact absurd (begun.symm.trans first) (by simp)
  | closed closing kept result =>
    -- A closed connection has no packet in hand that could be completed.
    have open_ : c.status ≠ .closed := fun closed => by
      obtain ⟨outgoing, retry, pending⟩ := h.drained closed
      simp [waiting, outgoing, retry, pending] at kept
    refine .closed open_ closing.closed ?_ result
    rcases closing.cause with asked | spent | ⟨notSeeking, notDriving⟩
    · exact .inl asked
    · exact .inr spent
    · cases carrier : c.carrier with
      | free =>
        rw [stance, carrier] at begun
        cases begun
      | seeking s => exact absurd carrier (notSeeking s)
      | driving d => exact absurd carrier (notDriving d)
      | finished => exact absurd (h.finished_iff.mpr carrier) open_

/-- A completion came about in a step of a run, for a cause that can be told. -/
def CausedIn (c : Connection) (actions : List Action) (k : Completion) : Prop :=
  ∃ front a rest b b', actions = front ++ a :: rest ∧ c.run front = some b ∧ b.step a = some b' ∧
    k ∉ b.completions ∧ k ∈ b'.completions ∧ Cause b b' k

/-- Every completion that a run brings about has a cause in one of its steps. -/
theorem Reachable.causedIn {settings : Settings} {roster : Roster} {c d : Connection}
    {actions : List Action} {k : Completion} (h : Reachable settings roster c)
    (begun : c.stance.begun = true) (run : c.run actions = some d) (few : d.sends < UInt32.size)
    (new : k ∉ c.completions) (hk : k ∈ d.completions) : CausedIn c actions k := by
  obtain ⟨front, a, rest, b, b', split, reach, taken, before, after, left⟩ :=
    exists_step_of_run (P := fun c => k ∈ c.completions) run new hk
  refine ⟨front, a, rest, b, b', split, reach, taken, before, after, ?_⟩
  have m := move_of_step taken
  have few : b.sends < UInt32.size :=
    Nat.lt_of_le_of_lt m.sends_le (Nat.lt_of_le_of_lt (sends_le_of_run left) few)
  have begun : b.stance.begun = true := run_invariant (P := fun b => b.stance.begun = true)
    (fun _ begun taken => (turn_of_step taken).begun begun) begun reach
  exact ((m.origin after).resolve_left before).cause (h.run reach) few begun

theorem Custody.mem_unwritten {c : Connection} (h : Custody [] c) (lined : Lined [] c)
    {p : PacketId} (hp : p < c.packets.length) (notWritten : p ∉ c.writes)
    (notSettled : p ∉ c.settled) : p ∈ c.unwritten := by
  have hm : p ∈ c.waiting ++ c.settled := h.accounted.once.mem_iff.mpr (List.mem_range.mpr hp)
  rcases mem_waiting_iff.mp ((List.mem_append.mp hm).resolve_right notSettled) with hm | hm
  · exact hm
  · obtain ⟨q, hq, rfl⟩ := List.mem_map.mp hm
    exact absurd (lined.awaited q hq) notWritten

theorem Custody.not_mem_settled {c : Connection} (h : Custody [] c) {p : PacketId}
    (hp : p ∈ c.unwritten) : p ∉ c.settled := by
  have hm : p ∈ c.waiting := mem_waiting_iff.mpr (.inl hp)
  exact fun settled => (List.nodup_append.mp h.accounted.nodup).2.2 p hm p settled rfl

theorem Custody.nodup_pending {c : Connection} (h : Custody [] c) :
    (c.pending.map (·.2)).Nodup := by
  have nodup : c.waiting.Nodup := (List.nodup_append.mp h.accounted.nodup).1
  exact (List.nodup_append.mp nodup).2.1

theorem length_le_of_run {c d : Connection} {actions : List Action} (run : c.run actions = some d) :
    c.packets.length ≤ d.packets.length := by
  have longer : c.numbers <+: d.numbers := run_invariant (P := fun d => c.numbers <+: d.numbers)
    (fun _ le taken => le.trans (move_of_step taken).numbers) (List.prefix_refl _) run
  simpa [numbers] using longer.length_le

theorem Reachable.unwritten_of_run {settings : Settings} {roster : Roster} {c d : Connection}
    {actions : List Action} {p : PacketId} (h : Reachable settings roster c)
    (hp : p ∈ c.unwritten) (run : c.run actions = some d) (few : d.sends < UInt32.size) :
    p ∈ d.unwritten ∨ p ∈ d.writes ∨ p ∈ d.settled := by
  have reached := h.run run
  by_cases written : p ∈ d.writes
  · exact .inr (.inl written)
  by_cases settled : p ∈ d.settled
  · exact .inr (.inr settled)
  have there : p < d.packets.length :=
    Nat.lt_of_lt_of_le (h.lined.ordered.lt_length hp) (length_le_of_run run)
  exact .inl ((reached.custody few).mem_unwritten reached.lined there written settled)

theorem mem_map_error_iff {ps : List PacketId} {f : Failure} {k : Completion} :
    k ∈ ps.map (fun p => (⟨p, .error f⟩ : Completion)) ↔ k.packet ∈ ps ∧ k.result = .error f := by
  rw [List.mem_map]
  constructor
  · rintro ⟨p, hp, rfl⟩
    exact ⟨hp, rfl⟩
  · exact fun ⟨hp, result⟩ => ⟨k.packet, hp, by rw [← result]⟩

/-- While the numbers do not run out: when a session ends with a failure, the packets that were
written on it to the end and whose responses have not been handled are completed, each with that
failure, and no others. All packets that are not written to the end and not completed stay so and
are kept in the line for the next session. Whatever happens to them later, they are in the line
until they are written or completed, and they are completed by a response, by the end of a session
that they were written on, because they are too long, or because the connection is closed. -/
theorem Reachable.failures_told {settings : Settings} {roster : Roster} {c c' : Connection}
    {a : Action} {f : Failure} (h : Reachable settings roster c) (taken : c.step a = some c')
    (lost : c'.losses = f :: c.losses) (few : c'.sends < UInt32.size) :
    f.endsSession = true ∧
    (∃ ks, c'.queued = c.queued ++ ks ∧ c'.ran = c.ran ∧ (ks.map (·.packet)).Nodup ∧
      ∀ k, k ∈ ks ↔ Expects c k.packet ∧ k.result = .error f) ∧
    (∀ p ∈ c.acceptances, p ∉ c.writes → p ∉ c.settled → p ∈ c'.unwritten) ∧
    (∀ p ∈ c'.unwritten, p ∉ c'.writes ∧ p ∉ c'.settled ∧
      ∀ actions d, c'.run actions = some d → d.sends < UInt32.size →
        (p ∈ d.unwritten ∨ p ∈ d.writes ∨ p ∈ d.settled) ∧
        ∀ k ∈ d.completions, k.packet = p → CausedIn c' actions k) := by
  have m := move_of_step taken
  have fewer : c.sends < UInt32.size := Nat.lt_of_le_of_lt m.sends_le few
  have custody := h.custody fewer
  have next := h.step a taken
  obtain ⟨d, b, driving, ends, halts, after⟩ := m.halts_of_lost lost
  obtain ⟨queued, ran⟩ := halts.completions_of_lost custody after
  have line : c'.unwritten = c.unwritten :=
    m.unwritten_of_lost h.lined (lost ▸ List.cons_ne_self _ _)
  have open_ : c.status ≠ .closed := fun closed => by
    cases (h.finished_iff.mp closed).symm.trans driving
  have begun : c'.stance.begun = true :=
    (turn_of_step taken).begun (by rw [stance, driving]; rfl)
  refine ⟨ends, ⟨_, queued, ran, ?_, fun k => ?_⟩, fun p hp notWritten notSettled => ?_,
    fun p hp => ?_⟩
  · rw [List.map_map]
    exact (List.map_id _).symm ▸ custody.nodup_pending
  · rw [h.expects_iff fewer open_]
    exact mem_map_error_iff
  · rw [line]
    exact custody.mem_unwritten h.lined (h.listed.lt_length hp) notWritten notSettled
  · have unsettled := (next.custody few).not_mem_settled hp
    refine ⟨fun written => next.lined.apart_of_mem_writes written hp, unsettled, ?_⟩
    intro actions d run few'
    refine ⟨next.unwritten_of_run hp run few', fun k hk same => ?_⟩
    refine next.causedIn begun run few' (fun old => unsettled ?_) hk
    exact same ▸ List.mem_map_of_mem old

/-- A session that breaks off in the second of two requests: the first packet is told so, the second
is kept. -/
theorem failures_told_of_broken_write : ∃ (c c' : Connection) (f : Failure), Reachable {}
    { endpoints := [⟨"localhost", 7000⟩], nonempty := by simp } c ∧
    c.step (.write (.broken (Framing.failure "writing data" ⟨.brokenPipe, "Broken pipe"⟩))) =
      some c' ∧
    c'.losses = f :: c.losses ∧ c'.sends < UInt32.size ∧ Expects c 0 ∧ ⟨0, .error f⟩ ∈ c'.queued ∧
    c'.unwritten = [1] ∧ 1 ∉ c'.settled := by
  have outcome : ((start {} { endpoints := [⟨"localhost", 7000⟩], nonempty := by simp }).run
      [.callConnect 1000, .enter, .seek, .seek, .seek,
        .answer (.ok (.connected { sessionId := 7, sessionTimeoutMs := 0 })),
        .beginSend .getAllServices .empty .returns, .reserve 0, .number 0, .enqueue 0,
        .beginSend .getAllServices .empty .returns, .reserve 0, .number 0, .enqueue 0,
        .write .done]).bind (fun c =>
      (c.step (.write (.broken
        (Framing.failure "writing data" ⟨.brokenPipe, "Broken pipe"⟩)))).map fun c' =>
      (c.pending, c.losses, c'.losses, c'.sends, c'.unwritten)) =
      some ([(1, 0)], [], [.connectionLoss "Connection lost: writing data: Broken pipe"], 2,
        [1]) := by decide +kernel
  obtain ⟨c, run, outcome⟩ := Option.bind_eq_some_iff.mp outcome
  obtain ⟨c', taken, facts⟩ := Option.map_eq_some_iff.mp outcome
  simp only [Prod.mk.injEq] at facts
  obtain ⟨waiting, none, lost, sends, line⟩ := facts
  have reached := Reachable.start.run run
  have few : c'.sends < UInt32.size := by rw [sends]; decide
  have fewer := Nat.lt_of_le_of_lt (move_of_step taken).sends_le few
  have lost : c'.losses =
      .connectionLoss "Connection lost: writing data: Broken pipe" :: c.losses := by
    rw [lost, none]
  have expects : Expects c 0 := reached.expects fewer (by simp [waiting])
  obtain ⟨-, ⟨ks, queued, -, -, told⟩, -, kept⟩ := reached.failures_told taken lost few
  refine ⟨c, c', _, reached, taken, lost, few, expects, ?_, line, (kept 1 (by simp [line])).2.1⟩
  rw [queued]
  exact List.mem_append_right _ ((told ⟨0, _⟩).mpr ⟨expects, rfl⟩)

end ServiceDirectory.Connection
