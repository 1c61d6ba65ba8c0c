import ServiceDirectory.Proofs.Connection.Origins
import ServiceDirectory.Proofs.Connection.Phases

/-! The numbers that start again. While they do not, a packet that is written displaces none that
waits for a response. After that a packet can get the number of one that still waits, and takes its
place; nothing will ever be told about the other. -/
namespace ServiceDirectory.Connection

theorem Move.pending_of_written {c c' : Connection} {who : Option Ticket} (m : Move c who c')
    {q : PacketId} (written : c'.writes = q :: c.writes) :
    ∃ c₁ x, Takes c q c₁ ∧ c.numbers[q]? = some x ∧
      c'.pending = c.pending.filter (fun r => r.1 != x) ++ [(x, q)] := by
  have other : c'.writes ≠ c.writes := written ▸ List.cons_ne_self _ _
  obtain ⟨same, -⟩ | ⟨_, id, c₁, p, -, takes, packet, -, pending, wrote, -⟩ |
      ⟨_, _, _, -, -, -, -, same, -⟩ := m.marks_cases
  · exact absurd same other
  · obtain rfl : q = id := (List.cons.inj (written.symm.trans wrote)).1
    have number : c₁.numbers[q]? = some p.xid := by simp [Connection.numbers, packet]
    exact ⟨c₁, p.xid, takes, takes.numbers ▸ number, takes.pending ▸ pending⟩
  · exact absurd same other

/-- While there are numbers enough, no packet that waits for a response has the number of the one
that is written, which is added to those that wait. -/
theorem Reachable.none_displaced {settings : Settings} {roster : Roster} {c c' : Connection}
    {a : Action} {q : PacketId} (h : Reachable settings roster c) (few : c.sends < UInt32.size)
    (taken : c.step a = some c') (written : c'.writes = q :: c.writes) :
    ∃ x, c.numbers[q]? = some x ∧ (∀ r ∈ c.pending, r.1 ≠ x) ∧
      c'.pending = c.pending ++ [(x, q)] := by
  obtain ⟨n, numbered⟩ := h.numbered few
  obtain ⟨c₁, x, takes, number, pending⟩ := (move_of_step taken).pending_of_written written
  have custody := (h.custody few).takes takes
  have distinct : c₁.numbers.Nodup := takes.numbers ▸ numbered.distinct
  have own : c₁.numbers[q]? = some x := takes.numbers ▸ number
  have others : ∀ r ∈ c.pending, r.1 ≠ x := takes.pending ▸ custody.pending_ne distinct own
  rw [← takes.pending, custody.filter_pending distinct own, takes.pending] at pending
  exact ⟨x, number, others, pending⟩

/-- A second packet is written while the first one waits. -/
theorem none_displaced_by_second : ∃ c c' : Connection, Reachable {}
    { endpoints := [⟨"localhost", 7000⟩], nonempty := by simp } c ∧ c.sends < UInt32.size ∧
    c.pending = [(1, 0)] ∧ c.step (.write .done) = some c' ∧ c'.writes = 1 :: c.writes ∧
    ∃ x, c.numbers[1]? = some x ∧ (∀ r ∈ c.pending, r.1 ≠ x) ∧
      c'.pending = c.pending ++ [(x, 1)] := by
  have outcome : ((start {} { endpoints := [⟨"localhost", 7000⟩], nonempty := by simp }).run
      [.callConnect 1000, .enter, .seek, .seek, .seek,
        .answer (.ok (.connected { sessionId := 7, sessionTimeoutMs := 0 })),
        .beginSend .getAllServices .empty .returns, .reserve 0, .number 0, .enqueue 0, .write .done,
        .beginSend .getAllServices .empty .returns, .reserve 0, .number 0, .enqueue 0]).map
      (fun c => (c.sends, c.pending, c.writes, (c.step (.write .done)).map (·.writes))) =
      some (2, [(1, 0)], [0], some [1, 0]) := by decide +kernel
  obtain ⟨c, run, facts⟩ := Option.map_eq_some_iff.mp outcome
  simp only [Prod.mk.injEq, Option.map_eq_some_iff] at facts
  obtain ⟨sends, pending, before, c', taken, after⟩ := facts
  have reached := Reachable.start.run run
  have few : c.sends < UInt32.size := by rw [sends]; decide
  have written : c'.writes = 1 :: c.writes := by rw [after, before]
  exact ⟨c, c', reached, few, pending, taken, written, reached.none_displaced few taken written⟩

/-- A packet that was written, of which no response is awaited and which is not completed. -/
structure Forsaken (p : PacketId) (c : Connection) : Prop where
  written : p ∈ c.writes
  unawaited : p ∉ c.pending.map (·.2)
  uncompleted : p ∉ c.settled

/-- No move does anything for a packet that is forsaken. -/
theorem Forsaken.move {c c' : Connection} {p : PacketId} (h : Forsaken p c) (lined : Lined [] c)
    {who : Option Ticket} (m : Move c who c') : Forsaken p c' := by
  -- What is written or completed comes from the line or from those that wait, and it is in neither.
  have apart : p ∉ c.unwritten := lined.apart_of_mem_writes h.written
  refine ⟨mem_writes.mpr (m.suffix.subset (mem_writes.mp h.written)), fun hp => ?_, fun hp => ?_⟩
  · obtain ⟨r, hr, rfl⟩ := List.mem_map.mp hp
    rcases m.pending_cases with fewer | ⟨_, id, x, _, -, takes, more⟩
    · exact h.unawaited (List.mem_map_of_mem (fewer hr))
    · rcases more r hr with old | rfl
      · exact h.unawaited (List.mem_map_of_mem old)
      · exact apart (takes.unwritten ▸ List.mem_cons_self)
  · obtain ⟨k, hk, rfl⟩ := List.mem_map.mp hp
    rcases m.origin hk with old | new
    · exact h.uncompleted (List.mem_map_of_mem old)
    · exact (mem_waiting_iff.mp new.mem_waiting).elim apart h.unawaited

theorem Reachable.forsaken_of_run {settings : Settings} {roster : Roster} {c d : Connection}
    {actions : List Action} {p : PacketId} (h : Reachable settings roster c) (lost : Forsaken p c)
    (run : c.run actions = some d) : Forsaken p d :=
  (run_invariant (P := fun d => Reachable settings roster d ∧ Forsaken p d)
    (fun a ⟨reached, lost⟩ taken =>
      ⟨reached.step a taken, lost.move reached.lined (move_of_step taken)⟩) ⟨h, lost⟩ run).2

/-- A session on which the first packet never gets its response. The packets of `line` are queued,
those of `late` wait for their responses like the first, and `told` is what the dispatcher has to
pass on. All others of the `n` packets are done with, and no number has been taken but theirs. -/
structure Slow (n : Nat) (line : List PacketId) (late : List (Xid × PacketId))
    (told : List Completion) (c : Connection) : Prop where
  session : ∃ d, c.carrier = .driving d ∧ d.writing = false
  running : c.shutdown = false
  held : c.holding = .held
  alive : c.status.isAlive = true
  senders : c.senders = []
  retry : c.retry = []
  dispatches : c.dispatches = told.map .completion
  outgoing : c.outgoing = line
  pending : c.pending = (1, 0) :: late
  places : c.outstanding = 1 + line.length + late.length + told.length
  room : 1 < c.settings.maxOutstanding
  length : c.packets.length = n
  next : c.nextXid = UInt32.ofNat (n + 1)
  fresh : ∀ q ∈ line ++ late.map (·.2), ∃ p, c.packets[q]? = some p ∧ p.completed = false ∧
    p.xid = UInt32.ofNat (q + 1) ∧ p.request = .empty
  uncompleted : 0 ∉ c.settled

theorem run_send {c : Connection} (held : c.holding = .held) (alive : c.status.isAlive = true)
    (idle : c.senders = []) (room : c.outstanding < c.settings.maxOutstanding)
    (live : c.carrier ≠ .finished) (op : OpCode) (request : ByteArray) (callback : Callback) :
    c.run [.beginSend op request callback, .reserve 0, .number 0, .enqueue 0] = some { c with
      nextTicket := c.nextTicket + 1
      outstanding := c.outstanding + 1
      nextXid := c.nextXid + 1
      packets := c.packets ++ [{
        xid := c.nextXid, op, request, callback
        stamps := { created := c.now, queued := some c.now } }]
      outgoing := c.outgoing ++ [c.packets.length]
      history := [.accepted c.nextTicket c.packets.length, .reserved c.nextTicket] ++
        c.history } := by
  simp [run, step, Action.isCall, held, beginSend, alive, idle, reserve, room, number, enqueue,
    record]

theorem step_write_done {c : Connection} {d : Drive} {id : PacketId} {outgoing : List PacketId}
    {packet : Packet} (driving : c.carrier = .driving d) (running : c.shutdown = false)
    (none : c.retry = []) (head : c.outgoing = id :: outgoing) (at_ : c.packets[id]? = some packet)
    (new : packet.completed = false) (fits : packet.isOversized = false) :
    c.step (.write .done) = some ({ c.updatePacket id (·.markSent c.now) with
      outgoing
      pending := c.pending.filter (fun (q : Xid × PacketId) => q.1 != packet.xid) ++
        [(packet.xid, id)]
      carrier := .driving { d with writing := false } }.record (.written id)) := by
  rw [step_write]
  simp [write, driving, running, none, head, at_, writeRequest, new, fits, updatePacket, record]

theorem step_receive_response {c : Connection} {d : Drive} {r : ResponseFrame} {id : PacketId}
    (driving : c.carrier = .driving d) (running : c.shutdown = false) (idle : d.writing = false)
    (none : c.retry = []) (known : c.pending.lookup r.xid = some id) :
    c.step (.receive (.ok (.response r))) =
      some (({ c with
        pending := c.pending.filter (·.1 != r.xid)
        carrier := .driving { d with lastFrame := c.now } }.record
          (.received (.response r))).updatePacket id (·.markReceived c.now) |>.complete id
            (Packet.resultOf r)) := by
  rw [step_receive]
  simp [receive, driving, running, none, idle, handle, respond, known, record]

namespace Slow

variable {n p : Nat} {line : List PacketId} {late : List (Xid × PacketId)} {c : Connection}

theorem send (h : Slow n [] [] [] c) :
    ∃ c' actions, c.run actions = some c' ∧ Slow (n + 1) [n] [] [] c' := by
  obtain ⟨d, driving, idle⟩ := h.session
  have room : c.outstanding < c.settings.maxOutstanding := by
    rw [h.places]
    exact h.room
  have live : c.carrier ≠ .finished := by simp [driving]
  refine ⟨_, _, run_send h.held h.alive h.senders room live .getAllServices .empty .returns, ?_⟩
  exact { h with
    session := ⟨d, driving, idle⟩
    outgoing := by simp [h.outgoing, h.length]
    places := by simp [h.places]
    length := by simp [h.length]
    next := by rw [h.next, ← UInt32.ofNat_one, ← UInt32.ofNat_add]
    fresh := by
      intro q hq
      obtain rfl : q = c.packets.length := by simpa [h.length] using hq
      exact ⟨_, List.getElem?_concat_length, rfl, h.length ▸ h.next, rfl⟩
    uncompleted := by
      have same := h.uncompleted
      simpa [settled, queued, ran, Event.completion?] using same }

theorem write (h : Slow n [p] [] [] c) (other : UInt32.ofNat (p + 1) ≠ 1) :
    ∃ c', c.step (.write .done) = some c' ∧ Slow n [] [(UInt32.ofNat (p + 1), p)] [] c' := by
  obtain ⟨d, driving, idle⟩ := h.session
  obtain ⟨packet, at_, new, number, request⟩ := h.fresh p (by simp)
  refine ⟨_, step_write_done driving h.running h.retry h.outgoing at_ new
    (packet.isOversized_of_empty request), ?_⟩
  exact { h with
    session := ⟨_, rfl, rfl⟩
    outgoing := rfl
    pending := by
      -- The number is not that of the first packet, so nobody is displaced.
      have kept : c.pending.filter (fun q => q.1 != packet.xid) = c.pending :=
        List.filter_eq_self.mpr (by simpa [h.pending, number] using other.symm)
      change c.pending.filter (fun q => q.1 != packet.xid) ++ [(packet.xid, p)] = _
      rw [kept, h.pending, number]
      rfl
    places := by simp [record, updatePacket, h.places]
    length := by simp [record, updatePacket, h.length]
    fresh := by
      intro q hq
      obtain rfl : q = p := by simpa using hq
      refine ⟨packet.markSent c.now, ?_, new, number, request⟩
      simp [record, updatePacket, at_]
    uncompleted := by
      have same := h.uncompleted
      simpa [settled, queued, ran, Event.completion?, record, updatePacket] using same }

theorem displace (h : Slow n [p] [] [] c) (same : UInt32.ofNat (p + 1) = 1) :
    c.numbers[p]? = some 1 ∧ ∃ c', c.step (.write .done) = some c' ∧ c'.writes = p :: c.writes ∧
      c'.waiting = [p] ∧ c'.settled = c.settled := by
  obtain ⟨d, driving, idle⟩ := h.session
  obtain ⟨packet, at_, new, number, request⟩ := h.fresh p (by simp)
  have number : packet.xid = 1 := number.trans same
  refine ⟨by simp [numbers, at_, number], _, step_write_done driving h.running h.retry h.outgoing
    at_ new (packet.isOversized_of_empty request), rfl, ?_, ?_⟩
  · simp [waiting, record, updatePacket, h.retry, h.pending, number]
  · simp [settled, queued, ran, List.filterMap_cons, Event.completion?, record, updatePacket]

theorem answer (h : Slow n [] [(UInt32.ofNat (p + 1), p)] [] c)
    (other : UInt32.ofNat (p + 1) ≠ 1) (r : ResponseFrame) (xid : r.xid = UInt32.ofNat (p + 1)) :
    ∃ c', c.step (.receive (.ok (.response r))) = some c' ∧
      Slow n [] [] [⟨p, Packet.resultOf r⟩] c' := by
  obtain ⟨d, driving, idle⟩ := h.session
  obtain ⟨packet, at_, new, -, -⟩ := h.fresh p (by simp)
  -- The packet that is completed is not the first one, whose number is 1.
  have later : p ≠ 0 := by
    rintro rfl
    exact other rfl
  rw [← xid] at h other
  have known : c.pending.lookup r.xid = some p := by
    have apart : (r.xid == 1) = false := by simpa using other
    simp [h.pending, List.lookup_cons, apart]
  have kept : c.pending.filter (fun q => q.1 != r.xid) = [(1, 0)] := by
    simp [h.pending, other.symm]
  have received := step_receive_response driving h.running idle h.retry known
  rw [kept] at received
  generalize arrived : ({ c with
    pending := [(1, 0)]
    carrier := .driving { d with lastFrame := c.now } }.record
      (.received (.response r))).updatePacket p (·.markReceived c.now) = b at received
  have there : b.packets[p]? = some (packet.markReceived c.now) := by
    simp [← arrived, updatePacket, record, at_]
  obtain ⟨done, -, -, completed⟩ := complete_eq there new (Packet.resultOf r)
  rw [completed] at received
  have settled := settled_complete b (b.packets.set p done) ⟨p, Packet.resultOf r⟩
  have uncompleted : 0 ∉ b.settled := by
    have same := h.uncompleted
    simpa [← arrived, Connection.settled, queued, ran, Event.completion?, record, updatePacket]
      using same
  refine ⟨_, received, ?_⟩
  subst arrived
  exact { h with
    session := ⟨_, rfl, idle⟩
    dispatches := by simp [publish, record, updatePacket, h.dispatches]
    pending := rfl
    places := h.places
    length := by simp [publish, record, updatePacket, h.length]
    fresh := by simp
    uncompleted := fun hp =>
      (List.mem_cons.mp (settled.mem_iff.mp hp)).elim (later ·.symm) uncompleted }

theorem deliver {k : Completion} (h : Slow n [] [] [k] c) :
    ∃ c', c.step .deliver = some c' ∧ Slow n [] [] [] c' := by
  have head : c.dispatches = .completion k :: [] := h.dispatches
  have settled := settled_deliver head (c.audience (.completion k))
  have delivered : c.step .deliver = some (({ c with dispatches := [] }.record
      (.delivered (.completion k) (c.audience (.completion k)))).invoke k) := by
    simp [step_deliver, Connection.deliver, head]
  generalize passed : { c with dispatches := [] }.record
    (.delivered (.completion k) (c.audience (.completion k))) = b at delivered settled
  have uncompleted : 0 ∉ b.settled := fun hp => h.uncompleted (settled.mem_iff.mp hp)
  have length : (b.invoke k).packets.length = b.packets.length := by
    simpa using congrArg List.length (b.map_invoke k (g := (·.completed)) fun _ _ => rfl)
  refine ⟨_, delivered, ?_⟩
  obtain ⟨packets, latency, invoked⟩ := b.invoke_shape k
  rw [invoked] at length ⊢
  subst passed
  exact { h with
    dispatches := rfl
    places := by simp [record, h.places]
    length := length.trans h.length
    fresh := by simp
    uncompleted := uncompleted }

/-- One more request is answered while the first one waits. -/
theorem next_round (h : Slow n [] [] [] c) {settings : Settings} {roster : Roster}
    (reached : Reachable settings roster c) (positive : 0 < n) (few : n < UInt32.size) :
    ∃ c', Reachable settings roster c' ∧ Slow (n + 1) [] [] [] c' := by
  -- The next number is 1 again when all others have been taken, and not before.
  have other : UInt32.ofNat (n + 1) ≠ 1 := fun same => by
    have wrapped : (n + 1) % UInt32.size = 1 := congrArg UInt32.toNat same
    have size : UInt32.size = 4294967296 := rfl
    rw [size] at wrapped few
    omega
  obtain ⟨c₁, actions, sent, h₁⟩ := h.send
  obtain ⟨c₂, written, h₂⟩ := h₁.write other
  obtain ⟨c₃, answered, h₃⟩ := h₂.answer other { xid := UInt32.ofNat (n + 1) } rfl
  obtain ⟨c₄, delivered, h₄⟩ := h₃.deliver
  exact ⟨c₄, .step _ (.step _ (.step _ (reached.run sent) written) answered) delivered, h₄⟩

theorem exists_of_lt (h : Slow 1 [] [] [] c) {settings : Settings} {roster : Roster}
    (reached : Reachable settings roster c) {k : Nat} (few : k < UInt32.size) :
    ∃ c', Reachable settings roster c' ∧ Slow (k + 1) [] [] [] c' := by
  induction k with
  | zero => exact ⟨c, reached, h⟩
  | succ k ih =>
    obtain ⟨c', reached', h'⟩ := ih (Nat.lt_of_succ_lt few)
    exact h'.next_round reached' k.succ_pos few

end Slow

/-- A first request is written, and its response does not come. -/
theorem exists_slow : ∃ c : Connection,
    Reachable {} { endpoints := [⟨"localhost", 7000⟩], nonempty := by simp } c ∧
      Slow 1 [] [] [] c := by
  have outcome : ((start {} { endpoints := [⟨"localhost", 7000⟩], nonempty := by simp }).run
      [.callConnect 1000, .enter, .seek, .seek, .seek,
        .answer (.ok (.connected { sessionId := 7, sessionTimeoutMs := 0 })), .deliver, .deliver,
        .beginSend .getAllServices .empty .returns, .reserve 0, .number 0, .enqueue 0,
        .write .done]).map
      (fun c => ([(c.receive (.ok .pong)).isSome, !c.shutdown, decide (c.holding = .held),
          c.status.isAlive],
        c.pending, c.nextXid,
        [c.senders.length, c.retry.length, c.dispatches.length, c.outgoing.length,
          c.settled.length, c.outstanding, c.settings.maxOutstanding, c.packets.length])) =
      some ([true, true, true, true], [(1, 0)], 2, [0, 0, 0, 0, 0, 1, 1000, 1]) := by
    decide +kernel
  obtain ⟨c, run, facts⟩ := Option.map_eq_some_iff.mp outcome
  simp only [Prod.mk.injEq, List.cons.injEq, List.length_eq_zero_iff, Bool.not_eq_true',
    decide_eq_true_eq, and_true] at facts
  obtain ⟨⟨session, running, held, alive⟩, pending, next, senders, retry, dispatches, outgoing,
    settled, places, limit, length⟩ := facts
  refine ⟨c, Reachable.start.run run, ?_⟩
  exact {
    session := by
      cases carrier : c.carrier with
      | driving d => exact ⟨d, rfl, by simpa [receive, carrier, running, retry] using session⟩
      | _ => simp [receive, carrier] at session
    running, held, alive, senders, retry, dispatches, outgoing, pending, places, length, next
    room := by rw [limit]; decide
    fresh := by simp
    uncompleted := by simp [settled] }

/-- Without a limit to the number of sends, a packet that is written can displace one that waits for
its response under the same number. Nothing is told about the other any more, whatever happens. -/
theorem exists_displaced : ∃ (c c' : Connection) (x : Xid) (p q : PacketId),
    Reachable {} { endpoints := [⟨"localhost", 7000⟩], nonempty := by simp } c ∧
    (x, p) ∈ c.pending ∧ c.numbers[q]? = some x ∧ p ≠ q ∧
    c.step (.write .done) = some c' ∧ c'.writes = q :: c.writes ∧ p ∉ c'.waiting ∧
    ∀ actions d, c'.run actions = some d → p ∉ d.settled := by
  obtain ⟨c₀, reached₀, slow₀⟩ := exists_slow
  -- No run of this length can be computed: that there is one is proved round by round.
  obtain ⟨c₁, reached₁, slow₁⟩ := slow₀.exists_of_lt reached₀ (k := UInt32.size - 1) (by decide)
  obtain ⟨c, actions, sent, slow⟩ := slow₁.send
  have reached := reached₁.run sent
  obtain ⟨number, c', taken, written, waiting, settled⟩ := slow.displace rfl
  have waits : (1, 0) ∈ c.pending := by simp [slow.pending]
  have lost : Forsaken 0 c' := by
    refine ⟨written ▸ List.mem_cons_of_mem _ (reached.lined.awaited _ waits), fun hp => ?_,
      settled ▸ slow.uncompleted⟩
    have hp := mem_waiting_iff.mpr (.inr hp)
    simp [waiting] at hp
  refine ⟨c, c', 1, 0, UInt32.size, reached, waits, number, by decide, taken, written,
    by simp [waiting], fun actions d run => ?_⟩
  exact ((reached.step _ taken).forsaken_of_run lost run).uncompleted

end ServiceDirectory.Connection
