import ServiceDirectory.Proofs.Connection.Custody
import ServiceDirectory.Proofs.Connection.Phases

/-! Every packet that is accepted is in one place at any time, and its callback runs once. A packet
is in the queue until the carrier takes it up; it is with the carrier until it is completed; it is
with the dispatcher until its callback runs. -/
namespace ServiceDirectory.Connection

def Event.accepted? : Event → Option PacketId
  | .accepted _ p => some p
  | _ => none

def acceptances (c : Connection) : List PacketId := c.history.filterMap Event.accepted?

theorem acceptances_eq_filterMap_sendLog (c : Connection) :
    c.acceptances = c.sendLog.filterMap Event.accepted? := by
  rw [acceptances, sendLog, List.filterMap_filter]
  refine congrArg (List.filterMap · c.history) (funext fun e => ?_)
  cases e <;> rfl

def Listed (c : Connection) : Prop := c.acceptances = (List.range c.numbers.length).reverse

namespace Listed

variable {c c' : Connection}

theorem congr (h : Listed c) (ha : c'.acceptances = c.acceptances) (hn : c'.numbers = c.numbers) :
    Listed c' := by
  rw [Listed, ha, hn]
  exact h

theorem record (h : Listed c) {e : Event} (he : e.accepted? = none) : Listed (c.record e) := by
  refine h.congr ?_ rfl
  simp [acceptances, Connection.record, he]

theorem aside (h : Listed c) (a : Aside c c') : Listed c' := by
  refine h.congr ?_ a.numbers
  rw [acceptances_eq_filterMap_sendLog, a.sendLog, ← acceptances_eq_filterMap_sendLog]

theorem accept (h : Listed c) (senders : List Sender) (outgoing : List PacketId) (packet : Packet)
    (ticket : Ticket) :
    Listed ({ c with senders, packets := c.packets ++ [packet], outgoing }.record
      (.accepted ticket c.packets.length)) := by
  have hl : c.numbers.length = c.packets.length := List.length_map _
  have hn : ({ c with senders, packets := c.packets ++ [packet], outgoing }.record
      (.accepted ticket c.packets.length)).numbers.length = c.packets.length + 1 := by
    simp [numbers, Connection.record]
  rw [Listed, hn, List.range_succ, List.reverse_append, ← hl, ← h, hl]
  rfl

theorem send (h : Listed c) {t : Ticket} (m : SendMove c t c') : Listed c' := by
  cases m with
  | begun op request callback => exact h.congr rfl rfl
  | declined => exact record (h.congr rfl rfl) rfl
  | admitted split stage room => exact record (h.congr rfl rfl) rfl
  | turnedAway split stage full => exact record (h.congr rfl rfl) rfl
  | numbered split stage => exact h.congr rfl rfl
  | accepted split stage live => exact h.accept _ _ _ _
  | tooLate split stage closed => exact record (h.congr rfl rfl) rfl

theorem move (h : Listed c) {who : Option Ticket} (m : Move c who c') : Listed c' := by
  cases who with
  | none => exact h.aside m.aside
  | some t =>
    cases m with
    | sending m => exact h.send m

end Listed

theorem Reachable.listed {settings : Settings} {roster : Roster} {c : Connection}
    (h : Reachable settings roster c) : Listed c := by
  induction h with
  | start => exact rfl
  | step a _ hs ih => exact ih.move (move_of_step hs)

/-- The places where a packet can be that was accepted. -/
inductive Place where
  | outgoing
  | retry
  | pending
  /-- Completed; the dispatcher has not taken it yet. -/
  | dispatched
  | invoked
  deriving DecidableEq

def held (c : Connection) : Place → List PacketId
  | .outgoing => c.outgoing
  | .retry => c.retry
  | .pending => c.pending.map (·.2)
  | .dispatched => c.queued.map (·.packet)
  | .invoked => c.ran.map (·.packet)

theorem held_perm (c : Connection) : (c.waiting ++ c.settled).Perm
    ((c.held .outgoing ++ c.held .retry) ++ (c.held .pending ++ (c.held .dispatched ++
      c.held .invoked))) := by
  rw [waiting, settled, List.map_append, List.append_assoc]
  exact .refl _

theorem Custody.count_held {c : Connection} (h : Custody [] c) {p : PacketId}
    (hp : p < c.packets.length) :
    (c.held .outgoing).count p + (c.held .retry).count p + ((c.held .pending).count p +
      ((c.held .dispatched).count p + (c.held .invoked).count p)) = 1 := by
  have once := (h.accounted.once.count_eq p)
  rw [List.nil_append, c.held_perm.count_eq p] at once
  simp only [List.count_append] at once
  rw [once]
  exact List.nodup_range.count.trans (if_pos (List.mem_range.mpr hp))

theorem Custody.exists_place {c : Connection} (h : Custody [] c) {p : PacketId}
    (hp : p < c.packets.length) :
    ∃ place, (c.held place).count p = 1 ∧ ∀ other, other ≠ place → p ∉ c.held other := by
  have once := h.count_held hp
  have absent {place : Place} (h0 : (c.held place).count p = 0) : p ∉ c.held place :=
    List.count_eq_zero.mp h0
  have found : ∃ place, (c.held place).count p = 1 := by
    obtain h1 | h1 | h1 | h1 | h1 : (c.held .outgoing).count p = 1 ∨
        (c.held .retry).count p = 1 ∨ (c.held .pending).count p = 1 ∨
        (c.held .dispatched).count p = 1 ∨ (c.held .invoked).count p = 1 := by omega
    · exact ⟨_, h1⟩
    · exact ⟨_, h1⟩
    · exact ⟨_, h1⟩
    · exact ⟨_, h1⟩
    · exact ⟨_, h1⟩
  obtain ⟨place, hplace⟩ := found
  refine ⟨place, hplace, fun other ho => absent ?_⟩
  cases place <;> cases other <;> first | exact absurd rfl ho | omega

theorem Custody.count_invoked_le {c : Connection} (h : Custody [] c) (p : PacketId) :
    (c.held .invoked).count p ≤ 1 := by
  have nodup : (c.held .dispatched ++ c.held .invoked).Nodup := by
    have nodup := (List.nodup_append.mp h.accounted.nodup).2.1
    rwa [settled, List.map_append] at nodup
  exact List.nodup_iff_count.mp (List.nodup_append.mp nodup).2.1 p

theorem Listed.lt_length {c : Connection} (h : Listed c) {p : PacketId} (hp : p ∈ c.acceptances) :
    p < c.packets.length := by
  rw [h, List.mem_reverse, List.mem_range, numbers, List.length_map] at hp
  exact hp

/-- While the numbers do not run out, every accepted packet is in one place at any time. Its
callback never runs twice, and it has run once the connection is closed and nothing is left for the
dispatcher. -/
theorem Reachable.accepted_in_one_place {settings : Settings} {roster : Roster} {c : Connection}
    (h : Reachable settings roster c) (few : c.sends < UInt32.size) :
    (∀ p ∈ c.acceptances,
      ∃ place, (c.held place).count p = 1 ∧ ∀ other, other ≠ place → p ∉ c.held other) ∧
    (∀ p, (c.held .invoked).count p ≤ 1) ∧
    (c.status = .closed → c.dispatches = [] →
      ∀ p ∈ c.acceptances, (c.held .invoked).count p = 1) := by
  have custody := h.custody few
  refine ⟨fun p hp => custody.exists_place (h.listed.lt_length hp), custody.count_invoked_le, ?_⟩
  intro closed delivered p hp
  obtain ⟨outgoing, retry, none⟩ := h.drained closed
  have once := custody.count_held (h.listed.lt_length hp)
  have queued : c.held .dispatched = [] := by simp [held, Connection.queued, delivered]
  have outgoing : c.held .outgoing = [] := outgoing
  have retry : c.held .retry = [] := retry
  have pending : c.held .pending = [] := by simp [held, none]
  simpa [outgoing, retry, pending, queued] using once

/-- Five packets of a session, one in each place: two are answered, and the callback of the first
has run; the third is written, the fourth half written and the last one queued. Once the connection
is closed and all is delivered, the callback of each has run once. -/
theorem accepted_in_one_place_closed : ∃ c d : Connection, Reachable {}
    { endpoints := [⟨"localhost", 7000⟩], nonempty := by simp } c ∧ c.sends < UInt32.size ∧
    c.acceptances = [4, 3, 2, 1, 0] ∧
    (∀ p ∈ c.acceptances,
      ∃ place, (c.held place).count p = 1 ∧ ∀ other, other ≠ place → p ∉ c.held other) ∧
    (c.held .invoked = [0] ∧ c.held .dispatched = [1] ∧ c.held .pending = [2] ∧
      c.held .retry = [3] ∧ c.held .outgoing = [4]) ∧
    c.run ([.callClose, .write .done, .hangUp true, .enter] ++ List.replicate 6 .deliver) =
      some d ∧
    d.status = .closed ∧ ∀ p ∈ d.acceptances, (d.held .invoked).count p = 1 := by
  let connect : List Action := [.callConnect 1000, .enter, .seek, .seek, .seek,
    .answer (.ok (.connected { sessionId := 7, sessionTimeoutMs := 0 }))]
  let send : List Action := [.beginSend .getAllServices .empty .returns, .reserve 0, .number 0,
    .enqueue 0]
  let answer : List Action := [.write .done, .write .done, .write .done,
    .receive (.ok (.response { xid := 1 })), .receive (.ok (.response { xid := 2 })), .deliver,
    .deliver, .deliver, .write .stalled]
  have outcome : ((start {} { endpoints := [⟨"localhost", 7000⟩], nonempty := by simp }).run
      (connect ++ send ++ send ++ send ++ send ++ send ++ answer)).bind (fun c =>
        (c.run ([.callClose, .write .done, .hangUp true, .enter] ++
          List.replicate 6 .deliver)).map fun d =>
        decide ((c.sends = 5 ∧ c.acceptances = [4, 3, 2, 1, 0]) ∧
          (c.held .invoked = [0] ∧ c.held .dispatched = [1] ∧ c.held .pending = [2] ∧
            c.held .retry = [3] ∧ c.held .outgoing = [4]) ∧
          d.sends = 5 ∧ d.status = .closed ∧ d.dispatches.length = 0)) = some true := by
    decide +kernel
  obtain ⟨c, run, outcome⟩ := Option.bind_eq_some_iff.mp outcome
  obtain ⟨d, closes, facts⟩ := Option.map_eq_some_iff.mp outcome
  obtain ⟨⟨sends, accepted⟩, places, later, closed, delivered⟩ := of_decide_eq_true facts
  have few : c.sends < UInt32.size := by rw [sends]; decide
  have few' : d.sends < UInt32.size := by rw [later]; decide
  have reached := Reachable.start.run run
  obtain ⟨one, -, -⟩ := reached.accepted_in_one_place few
  obtain ⟨-, -, once⟩ := (reached.run closes).accepted_in_one_place few'
  exact ⟨c, d, reached, few, accepted, one, places, closes, closed,
    once closed (List.length_eq_zero_iff.mp delivered)⟩

end ServiceDirectory.Connection
