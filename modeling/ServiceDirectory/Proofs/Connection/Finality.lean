import ServiceDirectory.Proofs.Connection.Latencies

/-! What a packet tells of its life. Its fields agree with each other in every state: it is
completed just if the end is stamped and just if it holds one result, and no stamp is there without
those that come before it. From its completion on, the only thing that can happen to it is that its
callback comes back. -/
namespace ServiceDirectory

def PacketResult.left : PacketResult → Option ByteArray × Option ErrorCode
  | .ok payload => (some payload, none)
  | .error f => (none, some f.code)

namespace PacketResult

theorem isSome_left_fst (r : PacketResult) : r.left.1.isSome = r.isOk := by
  cases r <;> rfl

theorem isSome_left_snd (r : PacketResult) : r.left.2.isSome = !r.isOk := by
  cases r <;> rfl

end PacketResult

namespace Packet

def held (x : Packet) : Option ByteArray × Option ErrorCode := (x.response, x.errorCode)

theorem held_ended {x : Packet} (unfinished : x.completed = false)
    (blank : x.held = (none, none)) (now : Nat) (r : PacketResult) :
    (x.ended now r).held = r.left := by
  obtain ⟨response, errorCode⟩ := Prod.mk.inj blank
  cases r <;> simp [ended, complete?, unfinished, held, PacketResult.left, response, errorCode]

/-- The fields of a packet agree with each other. -/
structure Coherent (x : Packet) : Prop where
  finished : x.completed = true ↔ x.stamps.finished.isSome = true
  one_result : x.completed = true ↔ x.response.isSome ≠ x.errorCode.isSome
  answered : x.response.isSome = true →
    x.stamps.sent.isSome = true ∧ x.stamps.received.isSome = true
  received : x.stamps.received.isSome = true → x.stamps.sent.isSome = true
  sent : x.stamps.sent.isSome = true → x.stamps.queued.isSome = true
  invoked : x.stamps.callbackInvoked.isSome = true → x.stamps.finished.isSome = true

end Packet

namespace Connection

structure Holds (c : Connection) (p : PacketId) (x : Packet) : Prop where
  blank : x.completed = false → x.held = (none, none)
  told : ∀ k ∈ c.completions, k.packet = p → x.held = k.result.left

section Results

variable {c c' : Connection} {p : PacketId} {x y : Packet}

theorem Fate.held_cases (fate : Fate c c' p x y)
    (blank : x.completed = false → x.held = (none, none)) :
    (y.completed = x.completed ∧ y.held = x.held) ∨
      y.completed = true ∧ ∃ r, y.held = r.left ∧ ⟨p, r⟩ ∈ c'.completions := by
  cases fate with
  | kept | written | invoked => exact .inl ⟨rfl, rfl⟩
  | @answered now r unfinished waits told =>
    have done := Packet.completed_ended (p := x.markReceived now) unfinished now
      (Packet.resultOf r)
    have held := Packet.held_ended (x := x.markReceived now) unfinished (blank unfinished) now
      (Packet.resultOf r)
    exact .inr ⟨done, _, held, told⟩
  | @failed now f unfinished own told =>
    have done := x.completed_ended unfinished now (.error f)
    have held := Packet.held_ended unfinished (blank unfinished) now (.error f)
    exact .inr ⟨done, _, held, told⟩

theorem Holds.move {who : Option Ticket} (h : Holds c p x) (m : Move c who c')
    (custody : Custody [] c) (custody' : Custody [] c') (here : c.packets[p]? = some x)
    (there : c'.packets[p]? = some y) (fate : Fate c c' p x y) : Holds c' p y := by
  rcases fate.held_cases h.blank with ⟨same, held⟩ | ⟨done, r, held, told⟩
  · refine ⟨fun unfinished => held.trans (h.blank (same ▸ unfinished)), fun k hk own => ?_⟩
    have done : y.completed = true := custody'.completed_of_told hk (own ▸ there)
    have earlier := m.told_before custody custody' here (same ▸ done) hk own
    exact held.trans (h.told k earlier own)
  · refine ⟨fun unfinished => absurd (unfinished.symm.trans done) Bool.false_ne_true,
      fun k hk own => ?_⟩
    rw [held, custody'.completion_eq hk told own]

theorem holds_of_brought (s : Sender) (xid : Xid) (now : Nat) (custody : Custody [] c)
    (waits : p ∈ c.unwritten) : Holds c p (s.packet xid now) := by
  refine ⟨fun _ => rfl, fun k hk own => ?_⟩
  have settled : p ∈ c.settled := own ▸ List.mem_map_of_mem hk
  have waiting : p ∈ c.waiting := mem_waiting_iff.mpr (.inl waits)
  exact absurd rfl ((List.nodup_append.mp custody.accounted.nodup).2.2 p waiting p settled)

end Results

section Records

variable {settings : Settings} {roster : Roster} {c d : Connection} {p : PacketId} {x : Packet}

theorem Reachable.holds (h : Reachable settings roster c) (few : c.sends < UInt32.size)
    (here : c.packets[p]? = some x) : Holds c p x :=
  h.of_fates (P := Holds)
    (fun s xid now custody _ waits => holds_of_brought s xid now custody waits)
    (fun holds => holds.move) few here

theorem Reachable.exists_told (h : Reachable settings roster c) (few : c.sends < UInt32.size)
    (here : c.packets[p]? = some x) (done : x.completed = true) :
    ∃ k ∈ c.completions, k.packet = p ∧ x.response.isSome = k.result.isOk ∧
      x.errorCode.isSome = !k.result.isOk := by
  obtain ⟨k, hk, own⟩ := List.mem_map.mp (((h.custody few).accounted.completed here).mp done)
  have held := (h.holds few here).told k hk own
  refine ⟨k, hk, own, ?_, ?_⟩
  · rw [← k.result.isSome_left_fst, ← held]
    rfl
  · rw [← k.result.isSome_left_snd, ← held]
    rfl

theorem Reachable.sent_of_answer (h : Reachable settings roster c) (few : c.sends < UInt32.size)
    (here : c.packets[p]? = some x) {k : Completion} (hk : k ∈ c.completions) (own : k.packet = p)
    (answer : k.result.isAnswer = true) : x.stamps.sent.isSome = true :=
  (h.stamped few here).sent.mpr (own ▸ (h.answered few k hk answer).mem_writes)

theorem Reachable.coherent (h : Reachable settings roster c) (few : c.sends < UInt32.size)
    (here : c.packets[p]? = some x) : x.Coherent := by
  have stamped := h.stamped few here
  have finished : x.completed = true ↔ x.stamps.finished.isSome = true := by
    rw [stamped.finished]
  -- What the fields say of an end is told by the completion that the packet met with.
  cases done : x.completed with
  | false =>
    obtain ⟨response, errorCode⟩ := Prod.mk.inj ((h.holds few here).blank done)
    have unanswered := stamped.unanswered done
    refine ⟨finished, ?_, fun payload => ?_, fun received => ?_, fun _ => stamped.queued,
      fun back => ?_⟩
    · simp [done, response, errorCode]
    · rw [response] at payload
      cases payload
    · rw [unanswered] at received
      cases received
    · have ran := (stamped.invoked.mp back).1
      have settled := List.map_subset _ (List.subset_append_right c.queued c.ran) ran
      exact finished.mp (((h.custody few).accounted.completed here).mpr settled)
  | true =>
    obtain ⟨k, hk, own, response, errorCode⟩ := h.exists_told few here done
    have received := stamped.received k hk own
    refine ⟨finished, ?_, fun payload => ?_, fun answered => ?_, fun _ => stamped.queued,
      fun _ => finished.mp done⟩
    · rw [response, errorCode]
      simp [done]
    · have answer := isAnswer_of_isOk (response ▸ payload)
      exact ⟨h.sent_of_answer few here hk own answer, received.trans answer⟩
    · exact h.sent_of_answer few here hk own (received ▸ answered)

/-- A packet that is completed stays as it is, but for the stamp of its callback. -/
theorem Reachable.final_of_run (h : Reachable settings roster c) {actions : List Action}
    (run : c.run actions = some d) (few : d.sends < UInt32.size) (here : c.packets[p]? = some x)
    (done : x.completed = true) : ∃ invoked, d.packets[p]? =
      some { x with stamps := { x.stamps with callbackInvoked := invoked } } := by
  have final : Reachable settings roster d ∧ (d.sends < UInt32.size → ∃ invoked, d.packets[p]? =
      some { x with stamps := { x.stamps with callbackInvoked := invoked } }) := by
    refine run_invariant (P := fun d => Reachable settings roster d ∧ (d.sends < UInt32.size →
      ∃ invoked, d.packets[p]? =
        some { x with stamps := { x.stamps with callbackInvoked := invoked } }))
      (fun {b b'} a ⟨reached, kept⟩ taken => ⟨reached.step a taken, fun few' => ?_⟩)
      ⟨h, fun _ => ⟨_, here⟩⟩ run
    have m := move_of_step taken
    have fewer := Nat.lt_of_le_of_lt m.sends_le few'
    obtain ⟨invoked, there⟩ := kept fewer
    obtain ⟨y, now, fate⟩ := m.fate (reached.custody fewer) there
    rcases fate.of_completed done with rfl | ⟨time, rfl⟩
    · exact ⟨invoked, now⟩
    · exact ⟨some time, now⟩
  exact final.2 few

/-- While the numbers do not run out, what a packet tells agrees with itself in every state: it is
completed just if its end is stamped, and just if it holds one of a payload and a failure; a payload
comes with the stamps of a request written and of a response met with, a response met with comes
after a request written and that after the queue, and a callback comes back after the end. From its
completion on a packet does not change any more, whatever happens, but for the stamp that says its
callback came back. -/
theorem Reachable.packets_final (h : Reachable settings roster c) {actions : List Action}
    (run : c.run actions = some d) (few : d.sends < UInt32.size) (here : c.packets[p]? = some x) :
    x.Coherent ∧ (x.completed = true → ∃ invoked, d.packets[p]? =
      some { x with stamps := { x.stamps with callbackInvoked := invoked } }) :=
  ⟨h.coherent (Nat.lt_of_le_of_lt (sends_le_of_run run) few) here,
    fun done => h.final_of_run run few here done⟩

end Records

/-- Of three packets the first is answered and the second loses its session while the third is
written. Then the connection is closed, and the callbacks come back. -/
theorem packets_final_of_closed : ∃ (c d : Connection) (actions : List Action)
    (x y z : Packet), Reachable {} { endpoints := [⟨"localhost", 7000⟩], nonempty := by simp } c ∧
    c.run actions = some d ∧ d.sends < UInt32.size ∧ c.packets = [x, y, z] ∧
    (x.completed = true ∧ x.response.isSome = true ∧ x.Coherent ∧ ∃ invoked, d.packets[0]? =
      some { x with stamps := { x.stamps with callbackInvoked := invoked } }) ∧
    (y.completed = true ∧ y.errorCode.isSome = true ∧ y.Coherent ∧ ∃ invoked, d.packets[1]? =
      some { y with stamps := { y.stamps with callbackInvoked := invoked } }) ∧
    (z.completed = false ∧ z.Coherent) ∧
    d.packets.map (·.stamps.callbackInvoked.isSome) = [true, true, true] := by
  let connect : List Action := [.callConnect 1000, .enter, .seek, .seek, .seek,
    .answer (.ok (.connected { sessionId := 7, sessionTimeoutMs := 0 })), .deliver, .deliver]
  let send : List Action :=
    [.beginSend .getAllServices .empty .returns, .reserve 0, .number 0, .enqueue 0]
  let lose : List Action := [.write .done, .write .done,
    .receive (.ok (.response { xid := 1 })),
    .write (.broken (Framing.failure "writing data" ⟨.brokenPipe, "Broken pipe"⟩))]
  let close : List Action := [.callClose, .seek, .enter] ++ List.replicate 6 .deliver
  have outcome : ((start {} { endpoints := [⟨"localhost", 7000⟩], nonempty := by simp }).run
      (connect ++ send ++ send ++ send ++ lose)).bind (fun c => (c.run close).map fun d =>
        (d.sends, c.packets.map (fun x => (x.completed, x.response.isSome, x.errorCode.isSome)),
          d.packets.map (·.stamps.callbackInvoked.isSome))) =
      some (3, [(true, true, false), (true, false, true), (false, false, false)],
        [true, true, true]) := by decide +kernel
  obtain ⟨c, run, outcome⟩ := Option.bind_eq_some_iff.mp outcome
  obtain ⟨d, closing, facts⟩ := Option.map_eq_some_iff.mp outcome
  obtain ⟨sends, ended, back⟩ : _ ∧ _ ∧ _ := by simpa only [Prod.mk.injEq] using facts
  simp only [List.map_eq_cons_iff, List.map_eq_nil_iff, Prod.mk.injEq] at ended
  obtain ⟨x, _, all, ⟨endedX, payload, -⟩, y, _, rfl, ⟨endedY, -, code⟩, z, _, rfl,
    ⟨openZ, -, -⟩, rfl⟩ := ended
  have reached := Reachable.start.run run
  have few : d.sends < UInt32.size := by rw [sends]; decide
  obtain ⟨coherentX, finalX⟩ :=
    reached.packets_final closing few (p := 0) (x := x) (by simp [all])
  obtain ⟨coherentY, finalY⟩ :=
    reached.packets_final closing few (p := 1) (x := y) (by simp [all])
  obtain ⟨coherentZ, -⟩ := reached.packets_final closing few (p := 2) (x := z) (by simp [all])
  exact ⟨c, d, close, x, y, z, reached, closing, few, all,
    ⟨endedX, payload, coherentX, finalX endedX⟩, ⟨endedY, code, coherentY, finalY endedY⟩,
    ⟨openZ, coherentZ⟩, back⟩

end Connection
end ServiceDirectory
