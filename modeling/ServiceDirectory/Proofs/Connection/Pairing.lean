import ServiceDirectory.Proofs.Connection.Origins
import ServiceDirectory.Proofs.Connection.Phases

/-! How responses are paired with packets. A packet waits under its number from the time its request
is written until the session breaks off or a response with that number arrives. A response that no
packet waits for changes nothing. -/
namespace ServiceDirectory

def PacketResult.isAnswer : PacketResult → Bool
  | .ok _ => true
  | .error f => !f.isOwn

namespace Connection

def Event.endsWait (x : Xid) : Event → Bool
  | .opened _ | .lost _ => true
  | .received (.response f) => f.xid == x
  | _ => false

theorem endsWait_of_not_isMark {e : Event} (h : e.isMark = false) (x : Xid) :
    e.endsWait x = false := by
  cases e with
  | received f => cases f <;> simp_all [Event.isMark, Event.endsWait]
  | _ => simp_all [Event.isMark, Event.endsWait]

theorem endsWait_of_isSend {e : Event} (h : e.isSend = true) (x : Xid) : e.endsWait x = false := by
  cases e <;> simp_all [Event.isSend, Event.endsWait]

/-- A packet was written on the session that is open now, and no response with this number has
arrived since. -/
def Awaits (history : List Event) (x : Xid) (p : PacketId) : Prop :=
  ∃ between older, history = between ++ .written p :: older ∧
    ∀ e ∈ between, e.endsWait x = false

theorem Awaits.append {history : List Event} {x : Xid} {p : PacketId}
    (h : Awaits history x p) {es : List Event} (hes : ∀ e ∈ es, e.endsWait x = false) :
    Awaits (es ++ history) x p := by
  obtain ⟨between, older, rfl, hb⟩ := h
  refine ⟨es ++ between, older, by rw [List.append_assoc], fun e hm => ?_⟩
  exact (List.mem_append.mp hm).elim (hes e) (hb e)

def Attends (c : Connection) : Prop := ∀ q ∈ c.pending, Awaits c.history q.1 q.2

namespace Attends

variable {c c' : Connection}

theorem of_nil (h : c.pending = []) : Attends c := by simp [Attends, h]

theorem append (h : Attends c) (es : List Event) (hp : ∀ q ∈ c'.pending, q ∈ c.pending)
    (hh : c'.history = es ++ c.history)
    (hes : ∀ e ∈ es, ∀ q ∈ c'.pending, e.endsWait q.1 = false) : Attends c' := by
  intro q hq
  rw [hh]
  exact (h q (hp q hq)).append fun e he => hes e he q hq

theorem congr (h : Attends c) (hp : ∀ q ∈ c'.pending, q ∈ c.pending)
    (hh : c'.history = c.history) : Attends c' :=
  h.append [] hp hh (by simp)

theorem quiet (h : Attends c) (q : Quiet c c') : Attends c' := by
  obtain ⟨es, he, hes⟩ := q.history
  exact h.append es (fun _ hq => q.pending ▸ hq) he
    fun e hm q _ => endsWait_of_not_isMark (hes e hm) q.1

theorem completes {kind : Completion → Prop} (h : Attends c) (k : Completes kind c c') :
    Attends c' := by
  obtain ⟨es, he, hes⟩ := k.history
  obtain ⟨-, -, pending, -⟩ := k.fields
  refine h.append es (fun _ hq => pending ▸ hq) he fun e hm q _ => ?_
  obtain ⟨k, rfl⟩ := hes e hm
  rfl

theorem record (h : Attends c) {e : Event} (he : ∀ q ∈ c.pending, e.endsWait q.1 = false) :
    Attends (c.record e) :=
  h.append [e] (fun _ hq => hq) rfl fun _ hm => List.mem_singleton.mp hm ▸ he

theorem takes (h : Attends c) {id : PacketId} (t : Takes c id c') : Attends c' := by
  cases t <;> exact h

theorem send (h : Attends c) {t : Ticket} (m : SendMove c t c') : Attends c' := by
  obtain ⟨es, he, hes⟩ := m.history
  exact h.append es (fun _ hq => m.pending ▸ hq) he
    fun e hm q _ => endsWait_of_isSend (hes e hm) q.1

theorem await (h : Attends c) (x : Xid) (id : PacketId) :
    Attends ({ c with
      pending := c.pending.filter (fun (q : Xid × PacketId) => q.1 != x) ++
        [(x, id)] }.record (.written id)) := by
  intro q hq
  rcases List.mem_append.mp hq with hq | hq
  · have before := h q (List.mem_filter.mp hq).1
    have kept : ∀ e ∈ [Event.written id], e.endsWait q.1 = false := by simp [Event.endsWait]
    exact before.append kept
  · obtain rfl := List.mem_singleton.mp hq
    exact ⟨[], c.history, rfl, by simp⟩

theorem move (h : Attends c) (rested : Rested c) {who : Option Ticket} (m : Move c who c') :
    Attends c' := by
  cases m with
  | quiet q => exact h.quiet q
  | sending m => exact h.send m
  | opened seeking q =>
    have away : ∀ s, c.stance ≠ .driving s := by simp [stance, seeking, Carrier.stance]
    exact of_nil (q.pending.trans (rested.away away))
  | skipped takes packet done q => exact (h.takes takes).quiet q
  | tooLarge takes packet q =>
    exact ((h.takes takes).completes (completes_complete _ _ _)).quiet q
  | @written d id p c₁ _ driving takes packet q =>
    have taken := h.takes takes
    have marked : Attends (c₁.updatePacket id (·.markSent c₁.now)) := taken
    exact (marked.await p.xid id).quiet q
  | stalled takes q =>
    have taken := h.takes takes
    refine quiet ?_ q
    exact taken
  | broken driving takes own q => exact of_nil q.pending
  | stray driving unknown q =>
    refine (h.record fun p hp => ?_).quiet q
    have other := List.lookup_eq_none_iff.mp unknown p hp
    rw [bne_comm] at other
    exact Bool.eq_false_iff.mpr fun hx => by simp_all [Event.endsWait]
  | @answered d r id c₁ driving known q =>
    refine completes ?_ (completes_complete _ _ _)
    obtain ⟨es, he, hes⟩ := q.history
    refine h.append (es ++ [.received (.response r)]) (fun p hp => ?_) ?_ ?_
    · exact q.pending ▸ (List.mem_filter.mp hp).1
    · rw [List.append_assoc]
      exact he
    · intro e hm p hp
      rcases List.mem_append.mp hm with hm | hm
      · exact endsWait_of_not_isMark (hes e hm) p.1
      · obtain rfl := List.mem_singleton.mp hm
        have other : p.1 ≠ r.xid := by simpa using (List.mem_filter.mp hp).2
        simpa [Event.endsWait] using other.symm
  | lost driving own before after => exact of_nil after.pending
  | gaveUp seeking own before after =>
    refine quiet ?_ after
    exact ((h.quiet before).completes (completes_failAll _ _ _)).congr (fun _ hq => hq) rfl
  | closedOut before after =>
    refine of_nil (after.pending.trans ?_)
    rw [failOutgoing, pending_failAll, failRetry, pending_failAll]
    rfl
  | @delivered k rest head ls =>
    have passed : Attends ({ c with dispatches := rest }.record (.delivered (.completion k) ls)) :=
      h.append [.delivered (.completion k) ls] (fun _ hq => hq) rfl
        (by simp [Event.endsWait])
    obtain ⟨packets, latency, hk⟩ := ({ c with dispatches := rest }.record
      (.delivered (.completion k) ls)).invoke_shape k
    rw [hk]
    exact passed

end Attends

theorem Reachable.attends {settings : Settings} {roster : Roster} {c : Connection}
    (h : Reachable settings roster c) : Attends c := by
  induction h with
  | start => exact .of_nil rfl
  | step a hr hs ih => exact ih.move hr.rested (move_of_step hs)

/-- A completion by the first response with the number of its packet that arrived, on the session
that the packet was written on, after that. -/
def Answered (c : Connection) (k : Completion) : Prop :=
  ∃ f newer older, c.history = newer ++ .received (.response f) :: older ∧
    Awaits older f.xid k.packet ∧ c.numbers[k.packet]? = some f.xid ∧
    k.result = Packet.resultOf f

theorem Answered.mono {c c' : Connection} {k : Completion} (h : Answered c k)
    (hh : c.history <:+ c'.history) (hn : c.numbers <+: c'.numbers) : Answered c' k := by
  obtain ⟨f, newer, older, history, awaits, number, result⟩ := h
  obtain ⟨more, hm⟩ := hh
  obtain ⟨others, ho⟩ := hn
  refine ⟨f, more ++ newer, older, ?_, awaits, ?_, result⟩
  · rw [← hm, history, List.append_assoc]
  · rw [← ho, List.getElem?_append_left (List.getElem?_eq_some_iff.mp number).1]
    exact number

/-- Of all that completes packets only a response gives an answer. -/
theorem Origin.answered_of_isAnswer {c c' : Connection} {k : Completion} (o : Origin c c' k)
    (answer : k.result.isAnswer = true) : ∃ r, (r.xid, k.packet) ∈ c.pending ∧
      .received (.response r) :: c.history <:+ c'.history ∧ k.result = Packet.resultOf r := by
  have none {f : Failure} (own : f.isOwn = true) (result : k.result = .error f) : False := by
    rw [result] at answer
    simp [PacketResult.isAnswer, own] at answer
  cases o with
  | answered waits arrived result => exact ⟨_, waits, arrived, result⟩
  | tooLarge here large result kept => exact (none rfl result).elim
  | lost waits ends noted result => exact (none (Failure.isOwn_of_endsSession ends) result).elim
  | gaveUp seeking first own result kept => exact (none own result).elim
  | closed closing kept result => exact (none rfl result).elim

theorem Move.answered_of_isAnswer {c c' : Connection} {who : Option Ticket} (m : Move c who c')
    (custody : Custody [] c) (attends : Attends c)
    (h : ∀ k ∈ c.completions, k.result.isAnswer = true → Answered c k) :
    ∀ k ∈ c'.completions, k.result.isAnswer = true → Answered c' k := by
  intro k hk answer
  rcases m.origin hk with old | new
  · exact (h k old answer).mono m.suffix m.numbers
  · obtain ⟨r, waits, ⟨newer, history⟩, result⟩ := new.answered_of_isAnswer answer
    refine ⟨r, newer, c.history, history.symm, attends _ waits, ?_, result⟩
    obtain ⟨others, ho⟩ := m.numbers
    have number := custody.keyed _ waits
    rw [← ho, List.getElem?_append_left (List.getElem?_eq_some_iff.mp number).1]
    exact number

theorem Reachable.answered {settings : Settings} {roster : Roster} {c : Connection}
    (h : Reachable settings roster c) (few : c.sends < UInt32.size) :
    ∀ k ∈ c.completions, k.result.isAnswer = true → Answered c k := by
  induction h with
  | start => simp [completions, queued, ran, Connection.start]
  | step a hr hs ih =>
    have m := move_of_step hs
    have few' := Nat.lt_of_le_of_lt m.sends_le few
    exact m.answered_of_isAnswer (hr.custody few') hr.attends (ih few')

theorem Custody.forall_pending_ne_iff {c : Connection} (h : Custody [] c) (x : Xid) :
    (∀ q ∈ c.pending, q.1 ≠ x) ↔ ∀ p packet, c.packets[p]? = some packet → packet.xid = x →
      packet.completed = true ∨ p ∈ c.outgoing ∨ p ∈ c.retry := by
  constructor
  · intro free p packet hp hx
    by_cases done : packet.completed = true
    · exact .inl done
    have unsettled : p ∉ c.settled := fun hm => done ((h.accounted.completed hp).mpr hm)
    have hm : p ∈ c.waiting ++ c.settled :=
      h.accounted.once.mem_iff.mpr (List.mem_range.mpr (List.getElem?_eq_some_iff.mp hp).1)
    rcases List.mem_append.mp ((List.mem_append.mp hm).resolve_right unsettled) with hm | hm
    · exact .inr (List.mem_append.mp hm)
    · obtain ⟨q, hq, rfl⟩ := List.mem_map.mp hm
      have number := h.keyed q hq
      rw [numbers, List.getElem?_map, hp] at number
      exact absurd ((Option.some.inj number).symm.trans hx) (free q hq)
  · rintro settled q hq rfl
    have number := h.keyed q hq
    rw [numbers, List.getElem?_map] at number
    obtain ⟨packet, hp, hx⟩ := Option.map_eq_some_iff.mp number
    have hand : q.2 ∈ c.pending.map (·.2) := List.mem_map_of_mem hq
    obtain ⟨packet', hp', incomplete⟩ :=
      h.accounted.incomplete (List.mem_append_right _ (List.mem_append_right _ hand))
    obtain rfl := Option.some.inj (hp.symm.trans hp')
    have nodup : c.waiting.Nodup := (List.nodup_append.mp h.accounted.nodup).1
    have apart := (List.nodup_append.mp nodup).2.2
    rcases settled q.2 packet hp hx with done | hm
    · exact Bool.false_ne_true (incomplete.symm.trans done)
    · exact apart q.2 (List.mem_append.mpr hm) q.2 hand rfl

theorem step_receive_stray {c c' : Connection} {f : ResponseFrame}
    (free : ∀ q ∈ c.pending, q.1 ≠ f.xid) (h : c.step (.receive (.ok (.response f))) = some c') :
    ∃ d, c.carrier = .driving d ∧ c' = { c with
      carrier := .driving { d with lastFrame := c.now }
      history := .received (.response f) :: c.history } := by
  have unknown : c.pending.lookup f.xid = none :=
    List.lookup_eq_none_iff.mpr fun q hq => by simpa using (free q hq).symm
  have taken : c.step (.receive (.ok (.response f))) = c.receive (.ok (.response f)) := by
    simp [step, Action.isCall]
  rw [taken, receive] at h
  split at h
  · rename_i d driving
    split at h
    · cases h
    · simp only [handle, respond, record, unknown] at h
      exact ⟨d, driving, (Option.some.inj h).symm⟩
  · cases h

/-- While the numbers do not run out, a callback is told an answer only by the first response with
the number of its packet that arrived on the session the packet was written on, after that. All
other responses, for packets that are not written yet or completed already or for none at all,
change nothing. -/
theorem Reachable.responses_paired {settings : Settings} {roster : Roster} {c : Connection}
    (h : Reachable settings roster c) (few : c.sends < UInt32.size) :
    (∀ k ∈ c.ran, k.result.isAnswer = true → Answered c k) ∧
    (∀ x, (∀ q ∈ c.pending, q.1 ≠ x) ↔ ∀ p packet, c.packets[p]? = some packet → packet.xid = x →
      packet.completed = true ∨ p ∈ c.outgoing ∨ p ∈ c.retry) ∧
    (∀ f c', (∀ q ∈ c.pending, q.1 ≠ f.xid) → c.step (.receive (.ok (.response f))) = some c' →
      ∃ d, c.carrier = .driving d ∧ c' = { c with
        carrier := .driving { d with lastFrame := c.now }
        history := .received (.response f) :: c.history }) := by
  refine ⟨fun k hk answer => ?_, (h.custody few).forall_pending_ne_iff, ?_⟩
  · exact h.answered few k (List.mem_append_right _ hk) answer
  · exact fun f c' free taken => step_receive_stray free taken

/-- A packet that is answered on its first session. -/
theorem responses_paired_first_session : ∃ (c : Connection) (k : Completion), Reachable {}
    { endpoints := [⟨"localhost", 7000⟩], nonempty := by simp } c ∧ c.sends < UInt32.size ∧
    c.ran = [k] ∧ k.result.isAnswer = true ∧ Answered c k := by
  have outcome : ((start {} { endpoints := [⟨"localhost", 7000⟩], nonempty := by simp }).run
      [.callConnect 1000, .enter, .seek, .seek, .seek,
        .answer (.ok (.connected { sessionId := 7, sessionTimeoutMs := 0 })),
        .beginSend .getAllServices .empty .returns, .reserve 0, .number 0, .enqueue 0,
        .write .done, .receive (.ok (.response { xid := 1 })), .deliver, .deliver, .deliver]).map
      (fun c => (c.sends, c.ran.map (·.result.isAnswer))) = some (1, [true]) := by
    decide +kernel
  obtain ⟨c, run, facts⟩ := Option.map_eq_some_iff.mp outcome
  simp only [Prod.mk.injEq] at facts
  have few : c.sends < UInt32.size := by rw [facts.1]; decide
  obtain ⟨k, ran, answer⟩ := List.map_eq_singleton_iff.mp facts.2
  have reached := Reachable.start.run run
  exact ⟨c, k, reached, few, ran, answer,
    (reached.responses_paired few).1 k (by simp [ran]) answer⟩

end Connection
end ServiceDirectory
