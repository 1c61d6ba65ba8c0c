import Mathlib.Data.List.Nodup
import ServiceDirectory.Proofs.Connection.Pairing
import ServiceDirectory.Proofs.Connection.Results

/-! The records of packets. A step does one of few things to a packet: its request is written, a
response or a failure completes it, its callback comes back, or it stays as it is. What its stamps
say about its life follows from this list. -/
namespace ServiceDirectory

namespace Packet

/-- A packet that something was to complete; one that is completed stays as it is. -/
def ended (p : Packet) (now : Nat) (r : PacketResult) : Packet := (p.complete? now r).getD p

theorem ended_of_completed {p : Packet} (done : p.completed = true) (now : Nat)
    (r : PacketResult) : p.ended now r = p := by
  rw [ended, (p.complete?_eq_none_iff now r).mpr done]
  rfl

section Open

variable {p : Packet} (unfinished : p.completed = false) (now : Nat) (r : PacketResult)
include unfinished

theorem completed_ended : (p.ended now r).completed = true := by
  cases r <;> simp [ended, complete?, unfinished]

theorem stamps_ended : (p.ended now r).stamps = { p.stamps with finished := some now } := by
  cases r <;> simp [ended, complete?, unfinished]

theorem callback_ended : (p.ended now r).callback = p.callback := by
  cases r <;> simp [ended, complete?, unfinished]

end Open

theorem ended_ended (p : Packet) (now now' : Nat) (r r' : PacketResult) :
    (p.ended now r).ended now' r' = p.ended now r := by
  refine ended_of_completed ?_ now' r'
  cases done : p.completed with
  | true => rw [ended_of_completed done, done]
  | false => exact completed_ended done now r

def afterCallback (p : Packet) (now : Nat) : Packet :=
  if p.callback = .breaksOff then p else p.markInvoked now

end Packet

namespace Connection

theorem now_complete (c : Connection) (p : PacketId) (r : PacketResult) :
    (c.complete p r).now = c.now := by
  obtain ⟨_, _, _, shape⟩ := c.complete_shape p r
  rw [shape]

theorem now_failAll (c : Connection) (ps : List PacketId) (f : Failure) :
    (c.failAll ps f).now = c.now := by
  obtain ⟨_, _, _, shape⟩ := c.failAll_shape ps f
  rw [shape]

theorem getElem?_complete (c : Connection) (p q : PacketId) (r : PacketResult) :
    (c.complete p r).packets[q]? =
      if p = q then (c.packets[q]?).map (·.ended c.now r) else c.packets[q]? := by
  cases here : c.packets[p]? with
  | none =>
    have same : c.complete p r = c := by simp [complete, here]
    rw [same]
    split
    · rename_i e
      rw [← e, here]
      rfl
    · rfl
  | some packet =>
    cases done : packet.completed with
    | true =>
      rw [complete_of_completed here done]
      split
      · rename_i e
        rw [← e, here, Option.map_some, Packet.ended_of_completed done]
      · rfl
    | false =>
      have known : packet.complete? c.now r = some (packet.ended c.now r) := by
        cases r <;> simp [Packet.ended, Packet.complete?, done]
      simp only [complete, here, Option.bind_eq_bind, Option.bind_some, known, publish, record]
      rw [List.getElem?_set]
      split
      · rename_i e
        rw [if_pos (List.getElem?_eq_some_iff.mp here).1, ← e, here]
        rfl
      · rfl

theorem getElem?_failAll (c : Connection) (ps : List PacketId) (f : Failure) (q : PacketId) :
    (c.failAll ps f).packets[q]? =
      if q ∈ ps then (c.packets[q]?).map (·.ended c.now (.error f)) else c.packets[q]? := by
  induction ps generalizing c with
  | nil => rfl
  | cons p ps ih =>
    rw [failAll, List.foldl_cons, ← failAll, ih, getElem?_complete, now_complete]
    by_cases first : p = q <;> by_cases later : q ∈ ps <;>
      simp [first, later, Function.comp_def, Packet.ended_ended, Ne.symm]

theorem getElem?_failPending (c : Connection) (f : Failure) (q : PacketId) :
    (c.failPending f).packets[q]? = if q ∈ c.pending.map (·.2) then
      (c.packets[q]?).map (·.ended c.now (.error f)) else c.packets[q]? :=
  c.getElem?_failAll _ f q

theorem getElem?_failRetry (c : Connection) (f : Failure) (q : PacketId) :
    (c.failRetry f).packets[q]? = if q ∈ c.retry then
      (c.packets[q]?).map (·.ended c.now (.error f)) else c.packets[q]? :=
  c.getElem?_failAll _ f q

theorem getElem?_failOutgoing (c : Connection) (f : Failure) (q : PacketId) :
    (c.failOutgoing f).packets[q]? = if q ∈ c.outgoing then
      (c.packets[q]?).map (·.ended c.now (.error f)) else c.packets[q]? :=
  c.getElem?_failAll _ f q

theorem getElem?_fail_waiting (c : Connection) (f : Failure) (q : PacketId) :
    (((c.failPending f).failRetry f).failOutgoing f).packets[q]? = if q ∈ c.waiting then
      (c.packets[q]?).map (·.ended c.now (.error f)) else c.packets[q]? := by
  have kept : (c.failPending f).retry = c.retry := retry_failAll _ _ _
  have left : ((c.failPending f).failRetry f).outgoing = c.outgoing :=
    ((c.failPending f).completes_failAll _ f).fields.1.trans (c.completes_failAll _ f).fields.1
  have clock : (c.failPending f).now = c.now := c.now_failAll _ f
  have clock' : ((c.failPending f).failRetry f).now = c.now :=
    ((c.failPending f).now_failAll _ f).trans clock
  rw [getElem?_failOutgoing, left, clock', getElem?_failRetry, kept, clock, getElem?_failPending]
  simp only [waiting, List.mem_append]
  by_cases first : q ∈ c.outgoing <;> by_cases second : q ∈ c.retry <;>
    by_cases third : q ∈ c.pending.map (·.2) <;>
    simp only [first, second, third, if_true, if_false, or_true, or_false,
      Option.map_map, Function.comp_def, Packet.ended_ended]

theorem getElem?_answered {c : Connection} {q : PacketId} {x : Packet}
    (here : c.packets[q]? = some x) (pending : List (Xid × PacketId)) (p : PacketId)
    (r : PacketResult) :
    (({ c with pending }.updatePacket p (·.markReceived c.now)).complete p r).packets[q]? =
      some (if p = q then (x.markReceived c.now).ended c.now r else x) := by
  have marked : ({ c with pending }.updatePacket p (·.markReceived c.now)).packets[q]? =
      some (if p = q then x.markReceived c.now else x) := by
    rw [updatePacket, List.getElem?_modify, here]
    split <;> rfl
  rw [getElem?_complete, marked]
  split <;> rfl

def timed (c : Connection) : List Completion × Option LatencyRegistry := (c.ran, c.latency)

theorem Quiet.timed {c c' : Connection} (q : Quiet c c') : c'.timed = c.timed :=
  Prod.ext q.ran q.latency

theorem Completes.timed {kind : Completion → Prop} {c c' : Connection} (h : Completes kind c c') :
    c'.timed = c.timed := by
  refine Prod.ext h.ran ?_
  obtain ⟨_, _, _, shape⟩ := h.shape
  rw [shape]
  rfl

theorem Takes.timed {c c' : Connection} {id : PacketId} (t : Takes c id c') :
    c'.timed = c.timed := by
  cases t <;> rfl

theorem timed_failPending (c : Connection) (f : Failure) : (c.failPending f).timed = c.timed :=
  (c.completes_failAll _ f).timed

theorem timed_failRetry (c : Connection) (f : Failure) : (c.failRetry f).timed = c.timed :=
  (c.completes_failAll _ f).timed

theorem timed_failOutgoing (c : Connection) (f : Failure) : (c.failOutgoing f).timed = c.timed :=
  (c.completes_failAll _ f).timed

theorem ran_delivered (c : Connection) (k : Completion) (rest : List Dispatch)
    (ls : List ListenerId) :
    (({ c with dispatches := rest }.record (.delivered (.completion k) ls)).invoke k).ran =
      k :: c.ran := by
  obtain ⟨_, _, shape⟩ :=
    ({ c with dispatches := rest }.record (.delivered (.completion k) ls)).invoke_shape k
  rw [shape]
  rfl

theorem mem_completions_of_head {c : Connection} {k : Completion} {rest : List Dispatch}
    (head : c.dispatches = .completion k :: rest) : k ∈ c.completions := by
  rw [completions, queued, head]
  exact List.mem_append_left _ List.mem_cons_self

theorem Move.timed_cases {c c' : Connection} {who : Option Ticket} (m : Move c who c') :
    c'.timed = c.timed ∨ ∃ k rest ls, c.dispatches = .completion k :: rest ∧
      c' = ({ c with dispatches := rest }.record (.delivered (.completion k) ls)).invoke k := by
  cases m with
  | quiet q => exact .inl q.timed
  | sending m => cases m <;> exact .inl rfl
  | opened seeking q => exact .inl q.timed
  | skipped takes packet done q => exact .inl (q.timed.trans takes.timed)
  | tooLarge takes packet q =>
    exact .inl ((q.timed.trans (completes_complete _ _ _).timed).trans takes.timed)
  | written driving takes packet q => exact .inl (q.timed.trans takes.timed)
  | stalled takes q => exact .inl (q.timed.trans takes.timed)
  | broken driving takes own q =>
    exact .inl ((q.timed.trans (timed_failPending _ _)).trans takes.timed)
  | stray driving unknown q => exact .inl q.timed
  | answered driving known q => exact .inl ((completes_complete _ _ _).timed.trans q.timed)
  | lost driving own before after =>
    exact .inl ((after.timed.trans (timed_failPending _ _)).trans before.timed)
  | gaveUp seeking own before after =>
    exact .inl ((after.timed.trans (timed_failOutgoing _ _)).trans before.timed)
  | closedOut before after =>
    refine .inl (after.timed.trans ?_)
    rw [timed_failOutgoing, timed_failRetry, timed_failPending, before.timed]
  | delivered head ls => exact .inr ⟨_, _, ls, head, rfl⟩

theorem getElem?_invoke (c : Connection) (k : Completion) (q : PacketId) :
    (c.invoke k).packets[q]? =
      if k.packet = q then (c.packets[q]?).map (·.afterCallback c.now) else c.packets[q]? := by
  unfold invoke
  cases here : c.packets[k.packet]? with
  | none =>
    simp only [here]
    split
    · rename_i same
      rw [← same, here]
      rfl
    · rfl
  | some p =>
    simp only [here]
    rw [List.getElem?_set]
    split
    · rename_i same
      rw [if_pos (List.getElem?_eq_some_iff.mp here).1, ← same, here]
      rfl
    · rfl

namespace Custody

variable {c : Connection} {p : PacketId} {x : Packet} {k k' : Completion}

theorem unfinished (h : Custody [] c) (inHand : p ∈ c.waiting) (here : c.packets[p]? = some x) :
    x.completed = false := by
  obtain ⟨x', same, unfinished⟩ := h.accounted.incomplete inHand
  rwa [Option.some.inj (here.symm.trans same)]

theorem completed_of_told (h : Custody [] c) (hk : k ∈ c.completions)
    (here : c.packets[k.packet]? = some x) : x.completed = true :=
  (h.accounted.completed here).mpr (List.mem_map_of_mem hk)

theorem exists_packet (h : Custody [] c) (hk : k ∈ c.completions) :
    ∃ x, c.packets[k.packet]? = some x ∧ x.completed = true := by
  have settled : k.packet ∈ c.settled := List.mem_map_of_mem hk
  have bound : k.packet < c.packets.length :=
    List.mem_range.mp (h.accounted.once.mem_iff.mp (List.mem_append_right _ settled))
  have here := List.getElem?_eq_getElem bound
  exact ⟨_, here, h.completed_of_told hk here⟩

theorem completion_eq (h : Custody [] c) (hk : k ∈ c.completions) (hk' : k' ∈ c.completions)
    (same : k.packet = k'.packet) : k = k' :=
  List.inj_on_of_nodup_map (List.nodup_append.mp h.accounted.nodup).2.1 hk hk' same

end Custody

theorem told_of_completed {c c' : Connection} (custody : Custody [] c) (kept : Keeps c c')
    {p : PacketId} {x y : Packet} {r : PacketResult} (here : c.packets[p]? = some x)
    (unfinished : x.completed = false) (there : c'.packets[p]? = some y)
    (done : y.completed = true)
    (only : ∀ k ∈ c'.completions, k ∈ c.completions ∨ k.result = r) :
    ⟨p, r⟩ ∈ c'.completions := by
  have unsettled : p ∉ c.settled := fun h =>
    Bool.false_ne_true (unfinished.symm.trans ((custody.accounted.completed here).mpr h))
  rcases kept.told there done with settled | ⟨before, same, finished⟩
  · obtain ⟨k, hk, rfl⟩ := List.mem_map.mp settled
    rcases only k hk with old | rfl
    · exact absurd (List.mem_map_of_mem old) unsettled
    · exact hk
  · obtain rfl := Option.some.inj (here.symm.trans same)
    cases unfinished.symm.trans finished

/-- All that a step can do to a packet. -/
inductive Fate (c c' : Connection) (p : PacketId) (x : Packet) : Packet → Prop where
  | kept : Fate c c' p x x
  | written (now : Nat) (unfinished : x.completed = false) (noted : c'.writes = p :: c.writes) :
    Fate c c' p x (x.markSent now)
  | answered (now : Nat) {r : ResponseFrame} (unfinished : x.completed = false)
    (waits : (r.xid, p) ∈ c.pending) (told : ⟨p, Packet.resultOf r⟩ ∈ c'.completions) :
    Fate c c' p x ((x.markReceived now).ended now (Packet.resultOf r))
  | failed (now : Nat) {f : Failure} (unfinished : x.completed = false) (own : f.isOwn = true)
    (told : ⟨p, .error f⟩ ∈ c'.completions) : Fate c c' p x (x.ended now (.error f))
  | invoked (now : Nat) (done : x.completed = true) (comesBack : x.callback ≠ .breaksOff)
    (ran : p ∈ c'.ran.map (·.packet)) : Fate c c' p x (x.markInvoked now)

theorem Fate.of_completed {c c' : Connection} {p : PacketId} {x y : Packet}
    (fate : Fate c c' p x y) (done : x.completed = true) :
    y = x ∨ ∃ now, y = x.markInvoked now := by
  cases fate with
  | kept => exact .inl rfl
  | written now unfinished | answered now unfinished | failed now unfinished =>
    cases unfinished.symm.trans done
  | invoked now => exact .inr ⟨now, rfl⟩

theorem Halts.packets {b c : Connection} (h : Halts c b) : b.packets = c.packets := by
  cases h with
  | quiet q => exact q.packets
  | putBack takes packet fits => exact takes.packets

theorem Completes.result_of_new {b c c' d : Connection} {kind : Completion → Prop}
    {r : PacketResult} (done : Completes kind b d) (all : ∀ k, kind k → k.result = r)
    (before : b.completions = c.completions) (after : c'.completions = d.completions) :
    ∀ k ∈ c'.completions, k ∈ c.completions ∨ k.result = r := fun k hk =>
  (done.mem_completions (after ▸ hk)).imp (before ▸ ·) (all k)

section Fates

variable {c c' : Connection} {p : PacketId} {x : Packet}

theorem fate_of_eq (same : c'.packets = c.packets) (here : c.packets[p]? = some x) :
    ∃ y, c'.packets[p]? = some y ∧ Fate c c' p x y :=
  ⟨x, same ▸ here, .kept⟩

theorem fate_failed (custody : Custody [] c) (kept : Keeps c c') (ps : List PacketId)
    (inHand : ps ⊆ c.waiting) {f : Failure} (own : f.isOwn = true) (now : Nat)
    (packets : c'.packets[p]? = if p ∈ ps then (c.packets[p]?).map (·.ended now (.error f))
      else c.packets[p]?)
    (only : ∀ k ∈ c'.completions, k ∈ c.completions ∨ k.result = .error f)
    (here : c.packets[p]? = some x) : ∃ y, c'.packets[p]? = some y ∧ Fate c c' p x y := by
  by_cases failed : p ∈ ps
  · have unfinished := custody.unfinished (inHand failed) here
    rw [if_pos failed, here, Option.map_some] at packets
    have told := told_of_completed custody kept here unfinished packets
      (x.completed_ended unfinished now _) only
    exact ⟨_, packets, .failed now unfinished own told⟩
  · rw [if_neg failed, here] at packets
    exact ⟨x, packets, .kept⟩

theorem Halts.fate {b : Connection} (h : Halts c b) (custody : Custody [] c) (kept : Keeps c c')
    {f : Failure} (own : f.isOwn = true)
    (q : Quiet ((b.record (.lost f)).failPending f) c') (here : c.packets[p]? = some x) :
    ∃ y, c'.packets[p]? = some y ∧ Fate c c' p x y := by
  have done := completes_failAll (b.record (.lost f)) (b.pending.map (·.2)) f
  refine fate_failed custody kept (c.pending.map (·.2))
    (fun q hq => mem_waiting_iff.mpr (.inr hq)) own b.now ?_
    (done.result_of_new (fun k hk => hk.2) h.completions q.completions) here
  rw [q.packets, ← h.packets, ← h.pending]
  exact (b.record (.lost f)).getElem?_failPending f p

end Fates

/-- Every packet meets with one of these. -/
theorem Move.fate {c c' : Connection} {who : Option Ticket} (m : Move c who c')
    (custody : Custody [] c) {p : PacketId} {x : Packet} (here : c.packets[p]? = some x) :
    ∃ y, c'.packets[p]? = some y ∧ Fate c c' p x y := by
  have kept := m.keeps custody.fresh
  cases m with
  | quiet q => exact fate_of_eq q.packets here
  | sending m =>
    cases m with
    | accepted split stage live =>
      exact ⟨x, (List.getElem?_append_left (List.getElem?_eq_some_iff.mp here).1).trans here, .kept⟩
    | _ => exact fate_of_eq rfl here
  | opened seeking q => exact fate_of_eq q.packets here
  | skipped takes packet done q => exact fate_of_eq (q.packets.trans takes.packets) here
  | @tooLarge id p' c₁ _ takes packet q large =>
    have inHand : id ∈ c.waiting :=
      mem_waiting_iff.mpr (.inl (takes.unwritten ▸ List.mem_cons_self))
    have done := c₁.completes_failAll [id] (Framing.tooLarge p'.frameSize)
    refine fate_failed custody kept [id]
      (fun q hq => List.mem_singleton.mp hq ▸ inHand) rfl c₁.now ?_
      (done.result_of_new (fun k hk => hk.2) takes.completions q.completions) here
    rw [q.packets, ← takes.packets]
    exact c₁.getElem?_failAll [id] (Framing.tooLarge p'.frameSize) p
  | @written d id p' c₁ _ driving takes packet q =>
    have inHand : id ∈ c.waiting :=
      mem_waiting_iff.mpr (.inl (takes.unwritten ▸ List.mem_cons_self))
    have noted : c'.writes = id :: c.writes := by
      rw [writes_of_marks q.marks, ← writes_of_marks takes.marks]
      rfl
    have packets : c'.packets = c.packets.modify id (·.markSent c₁.now) :=
      takes.packets ▸ q.packets
    rw [packets, List.getElem?_modify, here]
    by_cases same : id = p
    · subst same
      have unfinished := custody.unfinished inHand here
      exact ⟨_, by simp, .written c₁.now unfinished noted⟩
    · exact ⟨x, by simp [same], .kept⟩
  | stalled takes q => exact fate_of_eq (q.packets.trans takes.packets) here
  | broken driving takes own q ends packet fits =>
    exact (Halts.putBack takes packet fits).fate custody kept own q here
  | stray driving unknown q => exact fate_of_eq q.packets here
  | @answered d r id c₁ driving known q =>
    obtain ⟨l₁, l₂, split, -⟩ := List.lookup_eq_some_iff.mp known
    have waits : (r.xid, id) ∈ c.pending := by simp [split]
    have inHand : id ∈ c.waiting := mem_waiting_iff.mpr (.inr (List.mem_map_of_mem waits))
    have before : c₁.packets[p]? = some x := q.packets ▸ here
    have there := getElem?_answered before (c₁.pending.filter (·.1 != r.xid)) id (Packet.resultOf r)
    by_cases same : id = p
    · subst same
      have unfinished := custody.unfinished inHand here
      rw [if_pos rfl] at there
      have done := completes_complete (updatePacket
        { c₁ with pending := c₁.pending.filter (·.1 != r.xid) } id (·.markReceived c₁.now)) id
        (Packet.resultOf r)
      have told := told_of_completed custody kept here unfinished there
        (Packet.completed_ended (p := x.markReceived c₁.now) unfinished _ _)
        (done.result_of_new (fun k hk => by rw [hk]) q.completions rfl)
      exact ⟨_, there, .answered c₁.now unfinished waits told⟩
    · rw [if_neg same] at there
      exact ⟨x, there, .kept⟩
  | lost driving own before after ends =>
    exact (Halts.quiet before).fate custody kept own after here
  | @gaveUp s f c₁ _ seeking own before after first =>
    have inHand : c.outgoing ⊆ c.waiting := fun q hq =>
      mem_waiting_iff.mpr (.inl (List.mem_append_right _ hq))
    have done := c₁.completes_failAll c₁.outgoing f
    refine fate_failed custody kept c.outgoing inHand own c₁.now ?_
      (done.result_of_new (fun k hk => hk.2) before.completions after.completions) here
    rw [after.packets, ← before.packets, ← before.outgoing]
    exact c₁.getElem?_failOutgoing f p
  | @closedOut c₁ _ before after closing =>
    refine fate_failed custody kept c.waiting (List.Subset.refl _) (f := .connectionClosed) rfl
      c₁.now ?_ (fun k hk => ?_) here
    · rw [after.packets, ← before.packets, ← before.waiting]
      exact c₁.getElem?_fail_waiting .connectionClosed p
    · rw [after.completions] at hk
      exact (mem_completions_failAll hk).imp (before.completions ▸ ·) (·.2)
  | @delivered k rest head ls =>
    rw [getElem?_invoke]
    by_cases same : k.packet = p
    · subst same
      have told : k ∈ c.completions := mem_completions_of_head head
      have done := custody.completed_of_told told here
      rw [if_pos rfl]
      refine ⟨_, congrArg (Option.map _) here, ?_⟩
      simp only [Packet.afterCallback]
      split
      · exact .kept
      · rename_i comesBack
        refine .invoked _ done comesBack ?_
        rw [ran_delivered]
        exact List.mem_cons_self
    · rw [if_neg same]
      exact ⟨x, here, .kept⟩

theorem Move.fate_or_new {c c' : Connection} {who : Option Ticket} (m : Move c who c')
    (custody : Custody [] c) {p : PacketId} {y : Packet} (there : c'.packets[p]? = some y) :
    (∃ x, c.packets[p]? = some x ∧ Fate c c' p x y) ∨
      p ∈ c'.unwritten ∧ ∃ s ∈ c.senders, s.stage = .numbered y := by
  cases here : c.packets[p]? with
  | some x =>
    obtain ⟨y', same, fate⟩ := m.fate custody here
    obtain rfl := Option.some.inj (there.symm.trans same)
    exact .inl ⟨x, rfl, fate⟩
  | none =>
    have old : c'.packets ≠ c.packets := fun same => by
      rw [same, here] at there
      cases there
    cases who with
    | none =>
      -- The number of packets is the same, so this one was there.
      have length := congrArg List.length m.aside.numbers
      simp only [Connection.numbers, List.length_map] at length
      have bound := (List.getElem?_eq_some_iff.mp there).1
      exact absurd (List.getElem?_eq_none_iff.mp here) (Nat.not_le.mpr (length ▸ bound))
    | some t =>
      cases m with
      | sending m =>
        cases m with
        | @accepted l s packet r split stage live =>
          have beyond := List.getElem?_eq_none_iff.mp here
          have last : (c.packets ++ [packet])[p]? = some y := there
          rw [List.getElem?_append_right beyond] at last
          have first : p - c.packets.length = 0 :=
            Nat.lt_one_iff.mp (List.getElem?_eq_some_iff.mp last).1
          rw [first] at last
          obtain rfl := Option.some.inj last
          have place : p = c.packets.length :=
            Nat.le_antisymm (Nat.sub_eq_zero_iff_le.mp first) beyond
          refine .inr ⟨?_, s, by simp [split], stage⟩
          rw [place]
          exact List.mem_append_right _ (List.mem_append_right _ (List.mem_singleton_self _))
        | _ => exact absurd rfl old

def Untouched (p : Packet) : Prop :=
  p.completed = false ∧ ∃ now, p.stamps = { created := now, queued := some now }

theorem Reachable.made {settings : Settings} {roster : Roster} {c : Connection}
    (h : Reachable settings roster c) :
    ∀ s ∈ c.senders, ∀ p, s.stage = .numbered p →
      ∃ (s' : Sender) (xid : Xid) (now : Nat), p = s'.packet xid now := by
  induction h with
  | start => exact fun s hs => absurd hs List.not_mem_nil
  | @step c c' a _ taken ih =>
    have m := move_of_step taken
    revert m
    cases c.actor a with
    | none => exact fun m => m.aside.senders ▸ ih
    | some t =>
      intro m
      cases m with
      | sending m => exact m.forall_numbered (fun s xid now => ⟨s, xid, now, rfl⟩) ih

/-- What holds of a packet when a send brings it in, and then whatever it meets with, holds of every
packet while there are numbers enough. -/
theorem Reachable.of_fates {settings : Settings} {roster : Roster}
    {P : Connection → PacketId → Packet → Prop}
    (brought : ∀ {c : Connection} {p : PacketId} (s : Sender) (xid : Xid) (now : Nat),
      Custody [] c → Lined [] c → p ∈ c.unwritten → P c p (s.packet xid now))
    (meets : ∀ {c c' : Connection} {who : Option Ticket} {p : PacketId} {x y : Packet}, P c p x →
      Move c who c' → Custody [] c → Custody [] c' → c.packets[p]? = some x →
      c'.packets[p]? = some y → Fate c c' p x y → P c' p y)
    {c : Connection} (h : Reachable settings roster c) (few : c.sends < UInt32.size)
    {p : PacketId} {x : Packet} (here : c.packets[p]? = some x) : P c p x := by
  induction h generalizing x with
  | start => cases here
  | @step c c' a reached taken ih =>
    have m := move_of_step taken
    have few' := Nat.lt_of_le_of_lt m.sends_le few
    have custody := reached.custody few'
    have custody' := (reached.step a taken).custody few
    rcases m.fate_or_new custody here with ⟨old, there, fate⟩ | ⟨waits, s, sends, stage⟩
    · exact meets (ih few' there) m custody custody' there here fate
    · obtain ⟨s', xid, now, rfl⟩ := reached.made s sends x stage
      exact brought s' xid now custody' (reached.step a taken).lined waits

/-- What the stamps of a packet say: it was queued; its request was written; a response ended it;
it is over; its callback came back. -/
structure Stamped (c : Connection) (p : PacketId) (x : Packet) : Prop where
  queued : x.stamps.queued.isSome = true
  sent : x.stamps.sent.isSome = true ↔ p ∈ c.writes
  unanswered : x.completed = false → x.stamps.received = none
  received : ∀ k ∈ c.completions, k.packet = p →
    x.stamps.received.isSome = k.result.isAnswer
  finished : x.stamps.finished.isSome = x.completed
  invoked : x.stamps.callbackInvoked.isSome = true ↔
    p ∈ c.ran.map (·.packet) ∧ x.callback ≠ .breaksOff

theorem isAnswer_resultOf (r : ResponseFrame) :
    (Packet.resultOf r).isAnswer = true := by
  unfold Packet.resultOf
  cases r.error <;> rfl

theorem Move.mem_writes_cases {c c' : Connection} {who : Option Ticket} (m : Move c who c')
    {p : PacketId} {x y : Packet} (here : c.packets[p]? = some x)
    (there : c'.packets[p]? = some y) (written : p ∈ c'.writes) :
    p ∈ c.writes ∨ ∃ now, y = x.markSent now := by
  obtain ⟨same, -⟩ | ⟨_, id, c₁, _, -, takes, -, packets, -, writes, -⟩ |
      ⟨_, _, _, -, -, -, -, same, -⟩ := m.marks_cases
  · exact .inl (same ▸ written)
  · rw [writes, List.mem_cons] at written
    refine written.symm.imp_right fun same => ⟨c₁.now, ?_⟩
    rw [packets, takes.packets, ← same, List.getElem?_modify_eq, here] at there
    exact (Option.some.inj there).symm
  · exact .inl (same ▸ written)

theorem Move.invoked_iff {c c' : Connection} {who : Option Ticket} (m : Move c who c')
    {p : PacketId} {x y : Packet} (here : c.packets[p]? = some x)
    (there : c'.packets[p]? = some y) (fate : Fate c c' p x y)
    (before : x.stamps.callbackInvoked.isSome = true ↔
      p ∈ c.ran.map (·.packet) ∧ x.callback ≠ .breaksOff) :
    y.stamps.callbackInvoked.isSome = true ↔
      p ∈ c'.ran.map (·.packet) ∧ y.callback ≠ .breaksOff := by
  rcases m.timed_cases with same | ⟨k, rest, ls, head, rfl⟩
  · have same : c'.ran = c.ran := congrArg Prod.fst same
    cases fate with
    | kept => exact same ▸ before
    | written now unfinished => exact same ▸ before
    | @answered now r unfinished =>
      rw [Packet.stamps_ended (p := x.markReceived now) unfinished,
        Packet.callback_ended (p := x.markReceived now) unfinished, same]
      exact before
    | failed now unfinished =>
      rw [Packet.stamps_ended unfinished, Packet.callback_ended unfinished, same]
      exact before
    | invoked now done comesBack ran => exact ⟨fun _ => ⟨ran, comesBack⟩, fun _ => rfl⟩
  · have now := getElem?_invoke ({ c with dispatches := rest }.record
      (.delivered (.completion k) ls)) k p
    rw [there] at now
    rw [ran_delivered, List.map_cons, List.mem_cons]
    by_cases own : k.packet = p
    · rw [if_pos own] at now
      obtain rfl := Option.some.inj (now.trans (congrArg (Option.map _) here))
      simp only [Packet.afterCallback]
      split
      · rename_i breaks
        rw [before]
        simp [breaks]
      · rename_i comesBack
        exact ⟨fun _ => ⟨.inl own.symm, comesBack⟩, fun _ => rfl⟩
    · rw [if_neg own] at now
      obtain rfl := Option.some.inj (now.trans here)
      rw [before, or_iff_right (Ne.symm own)]

theorem Move.told_before {c c' : Connection} {who : Option Ticket} (m : Move c who c')
    (custody : Custody [] c) (custody' : Custody [] c') {p : PacketId} {x : Packet}
    (here : c.packets[p]? = some x) (done : x.completed = true) {k : Completion}
    (hk : k ∈ c'.completions) (own : k.packet = p) : k ∈ c.completions := by
  obtain ⟨k', hk', own'⟩ := List.mem_map.mp ((custody.accounted.completed here).mp done)
  have kept := (m.keeps custody.fresh).completions hk'
  exact custody'.completion_eq hk kept (own.trans own'.symm) ▸ hk'

theorem Stamped.move {c c' : Connection} {who : Option Ticket} {p : PacketId} {x y : Packet}
    (h : Stamped c p x) (m : Move c who c') (custody : Custody [] c) (custody' : Custody [] c')
    (here : c.packets[p]? = some x) (there : c'.packets[p]? = some y)
    (fate : Fate c c' p x y) : Stamped c' p y := by
  have wrote : c.writes ⊆ c'.writes := (m.suffix.sublist.filterMap _).subset
  have back := m.invoked_iff here there fate h.invoked
  have sent (same : y.stamps.sent = x.stamps.sent) :
      y.stamps.sent.isSome = true ↔ p ∈ c'.writes := by
    constructor
    · exact fun stamped => wrote (h.sent.mp (same ▸ stamped))
    · intro written
      rcases m.mem_writes_cases here there written with old | ⟨now, marked⟩
      · exact same ▸ h.sent.mpr old
      · rw [marked]
        rfl
  have ended {k : Completion} (hk : k ∈ c'.completions) (own : k.packet = p) :
      y.completed = true :=
    custody'.completed_of_told hk (own ▸ there)
  have earlier (done : x.completed = true) {k : Completion} (hk : k ∈ c'.completions)
      (own : k.packet = p) : k ∈ c.completions :=
    m.told_before custody custody' here done hk own
  cases fate with
  | kept =>
    exact ⟨h.queued, sent rfl, h.unanswered,
      fun k hk own => h.received k (earlier (ended hk own) hk own) own, h.finished, back⟩
  | written now unfinished noted =>
    refine ⟨h.queued, ⟨fun _ => noted ▸ List.mem_cons_self, fun _ => rfl⟩, h.unanswered,
      fun k hk own => ?_, h.finished, back⟩
    exact absurd (unfinished.symm.trans (ended hk own)) Bool.false_ne_true
  | @answered now r unfinished waits told =>
    have stamps := Packet.stamps_ended (p := x.markReceived now) unfinished now
      (Packet.resultOf r)
    have done := Packet.completed_ended (p := x.markReceived now) unfinished now
      (Packet.resultOf r)
    refine ⟨by rw [stamps]; exact h.queued, sent (by rw [stamps]; rfl),
      fun unended => absurd (unended.symm.trans done) Bool.false_ne_true, fun k hk own => ?_,
      by rw [stamps, done]; rfl, back⟩
    rw [custody'.completion_eq hk told own, isAnswer_resultOf, stamps]
    rfl
  | @failed now f unfinished own told =>
    have stamps := x.stamps_ended unfinished now (.error f)
    have done := x.completed_ended unfinished now (.error f)
    refine ⟨by rw [stamps]; exact h.queued, sent (by rw [stamps]),
      fun unended => absurd (unended.symm.trans done) Bool.false_ne_true, fun k hk mine => ?_,
      by rw [stamps, done]; rfl, back⟩
    rw [custody'.completion_eq hk told mine, stamps, h.unanswered unfinished,
      PacketResult.isAnswer, own]
    rfl
  | invoked now done comesBack ran =>
    exact ⟨h.queued, sent rfl, h.unanswered,
      fun k hk own => h.received k (earlier done hk own) own, h.finished, back⟩

theorem Untouched.stamped {c : Connection} {p : PacketId} {x : Packet} (h : Untouched x)
    (custody : Custody [] c) (lined : Lined [] c) (waits : p ∈ c.unwritten) : Stamped c p x := by
  obtain ⟨unfinished, now, stamps⟩ := h
  have unsettled : p ∉ c.settled := fun hs =>
    (List.nodup_append.mp custody.accounted.nodup).2.2 p (mem_waiting_iff.mpr (.inl waits)) p hs rfl
  have unwritten : p ∉ c.writes := fun hw => lined.apart_of_mem_writes hw waits
  refine ⟨by rw [stamps]; rfl, ⟨fun sent => ?_, fun hw => absurd hw unwritten⟩,
    fun _ => by rw [stamps], fun k hk own => ?_, by rw [stamps, unfinished]; rfl,
    fun back => ?_, fun back => ?_⟩
  · rw [stamps] at sent
    cases sent
  · exact absurd (own ▸ List.mem_map_of_mem hk) unsettled
  · rw [stamps] at back
    cases back
  · exact absurd (List.map_subset _ (List.subset_append_right _ _) back.1) unsettled

theorem Reachable.stamped {settings : Settings} {roster : Roster} {c : Connection}
    (h : Reachable settings roster c) (few : c.sends < UInt32.size) {p : PacketId} {x : Packet}
    (here : c.packets[p]? = some x) : Stamped c p x :=
  h.of_fates (P := Stamped)
    (fun _ _ now => Untouched.stamped ⟨rfl, now, rfl⟩)
    (fun stamped => stamped.move) few here

end Connection
end ServiceDirectory
