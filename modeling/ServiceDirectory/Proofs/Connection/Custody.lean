import ServiceDirectory.Proofs.Connection.Numbers

/-! Where the packets of a connection are. A packet that is not completed is in hand: in the queue
of those not taken up, among those to be written again, or among those that wait for a response. A
packet that is completed is with the dispatcher, or its callback has run. The operations pass
packets on from the one to the other and lose none. -/
namespace ServiceDirectory.Connection

def waiting (c : Connection) : List PacketId := c.outgoing ++ c.retry ++ c.pending.map (·.2)

def settled (c : Connection) : List PacketId := (c.queued ++ c.ran).map (·.packet)

theorem Quiet.settled {c c' : Connection} (q : Quiet c c') : c'.settled = c.settled := by
  rw [Connection.settled, q.queued, q.ran]
  rfl

theorem Quiet.waiting {c c' : Connection} (q : Quiet c c') : c'.waiting = c.waiting := by
  rw [Connection.waiting, q.outgoing, q.retry, q.pending]
  rfl

/-- Every packet is once in hand or completed, and knows which of the two. -/
structure Accounted (hand : List PacketId) (c : Connection) : Prop where
  once : (hand ++ c.settled).Perm (List.range c.packets.length)
  completed : ∀ {p : PacketId} {packet : Packet}, c.packets[p]? = some packet →
    (packet.completed = true ↔ p ∈ c.settled)

namespace Accounted

variable {hand hand' : List PacketId} {c c' : Connection} {p : PacketId}

theorem congr (h : Accounted hand c) (hp : c'.packets = c.packets)
    (hs : c'.settled = c.settled) : Accounted hand c' :=
  ⟨by rw [hp, hs]; exact h.once, by rw [hp, hs]; exact h.completed⟩

theorem perm (h : Accounted hand c) (k : hand.Perm hand') : Accounted hand' c :=
  ⟨(k.symm.append_right _).trans h.once, h.completed⟩

theorem nodup (h : Accounted hand c) : (hand ++ c.settled).Nodup :=
  h.once.nodup_iff.mpr List.nodup_range

theorem lt_length (h : Accounted hand c) (hm : p ∈ hand) : p < c.packets.length :=
  List.mem_range.mp (h.once.mem_iff.mp (List.mem_append_left _ hm))

theorem incomplete (h : Accounted hand c) (hm : p ∈ hand) :
    ∃ packet, c.packets[p]? = some packet ∧ packet.completed = false := by
  have hp := List.getElem?_eq_getElem (h.lt_length hm)
  refine ⟨_, hp, ?_⟩
  have hs : p ∉ c.settled := fun hs => (List.nodup_append.mp h.nodup).2.2 p hm p hs rfl
  exact Bool.eq_false_iff.mpr fun hc => hs ((h.completed hp).mp hc)

end Accounted

theorem complete_eq {c : Connection} {p : PacketId} {packet : Packet}
    (hp : c.packets[p]? = some packet) (hc : packet.completed = false) (r : PacketResult) :
    ∃ done : Packet, done.completed = true ∧ done.xid = packet.xid ∧ c.complete p r =
      { c with packets := c.packets.set p done }.publish (.completion ⟨p, r⟩) := by
  have hk : packet.complete? c.now r ≠ none := fun hk =>
    Bool.false_ne_true (hc.symm.trans ((packet.complete?_eq_none_iff c.now r).mp hk))
  obtain ⟨done, hd⟩ := Option.ne_none_iff_exists'.mp hk
  refine ⟨done, Packet.completed_of_complete? hd, ?_, ?_⟩
  · cases r <;> simp [Packet.complete?, hc] at hd <;> rw [← hd]
  · simp [complete, hp, hd]

theorem settled_complete (c : Connection) (packets : List Packet) (k : Completion) :
    ({ c with packets }.publish (.completion k)).settled.Perm (k.packet :: c.settled) := by
  have hq : ({ c with packets }.publish (.completion k)).queued = c.queued ++ [k] := by
    simp [queued, publish, record, Dispatch.completion?]
  have hr : ({ c with packets }.publish (.completion k)).ran = c.ran := rfl
  have moved : (c.queued ++ ([k] ++ c.ran)).Perm (k :: (c.queued ++ c.ran)) := List.perm_middle
  rw [settled, hq, hr, List.append_assoc]
  exact moved.map (·.packet)

theorem settled_deliver {c : Connection} {k : Completion} {rest : List Dispatch}
    (head : c.dispatches = .completion k :: rest) (ls : List ListenerId) :
    ({ c with dispatches := rest }.record (.delivered (.completion k) ls)).settled.Perm
      c.settled := by
  have hq : c.queued = k :: ({ c with dispatches := rest }.record
      (.delivered (.completion k) ls)).queued := by
    simp [queued, head, record, Dispatch.completion?]
  have hr : ({ c with dispatches := rest }.record (.delivered (.completion k) ls)).ran =
      k :: c.ran := by
    simp [ran, record, Event.completion?, Dispatch.completion?]
  rw [settled, settled, hq, hr]
  refine List.Perm.map _ ?_
  exact List.perm_middle

theorem Accounted.complete {hand : List PacketId} {c : Connection} {p : PacketId}
    (h : Accounted (p :: hand) c) (r : PacketResult) : Accounted hand (c.complete p r) := by
  obtain ⟨packet, hp, hc⟩ := h.incomplete List.mem_cons_self
  obtain ⟨done, hd, -, he⟩ := complete_eq hp hc r
  have hs := settled_complete c (c.packets.set p done) ⟨p, r⟩
  rw [he]
  constructor
  · have hlen : ({ c with packets := c.packets.set p done }.publish
        (.completion ⟨p, r⟩)).packets.length = c.packets.length := by
      simp [publish, record]
    rw [hlen]
    exact ((hs.append_left hand).trans List.perm_middle).trans h.once
  · intro q packet' hq
    rw [hs.mem_iff, List.mem_cons]
    have hq' : (c.packets.set p done)[q]? = some packet' := hq
    by_cases hpq : p = q
    · subst hpq
      rw [List.getElem?_set_self (h.lt_length List.mem_cons_self)] at hq'
      obtain rfl := Option.some.inj hq'
      simp [hd]
    · rw [List.getElem?_set_ne hpq] at hq'
      rw [h.completed hq', or_iff_right (Ne.symm hpq)]

theorem Accounted.failAll {hand ps : List PacketId} {c : Connection}
    (h : Accounted (ps ++ hand) c) (f : Failure) : Accounted hand (c.failAll ps f) := by
  induction ps generalizing c with
  | nil => exact h
  | cons p ps ih => exact ih (Accounted.complete h (.error f))

theorem Accounted.repack {hand : List PacketId} {c c' : Connection} (h : Accounted hand c)
    (hp : c'.packets.map (·.completed) = c.packets.map (·.completed))
    (hs : c'.settled.Perm c.settled) : Accounted hand c' := by
  constructor
  · have hlen : c'.packets.length = c.packets.length := by simpa using congrArg List.length hp
    rw [hlen]
    exact (hs.append_left hand).trans h.once
  · intro q packet hq
    have hm : (c.packets.map (·.completed))[q]? = some packet.completed := by
      rw [← hp, List.getElem?_map, hq]
      rfl
    rw [List.getElem?_map] at hm
    obtain ⟨old, hold, hc⟩ := Option.map_eq_some_iff.mp hm
    rw [hs.mem_iff, ← h.completed hold, hc]

theorem Accounted.append {hand : List PacketId} {c c' : Connection} {packet : Packet}
    (h : Accounted hand c) (hp : c'.packets = c.packets ++ [packet]) (hs : c'.settled = c.settled)
    (hc : packet.completed = false) : Accounted (c.packets.length :: hand) c' := by
  constructor
  · rw [hp, hs, List.length_append, List.length_singleton, List.range_succ]
    exact (h.once.cons _).trans (List.perm_append_singleton _ _).symm
  · intro q packet' hq
    rw [hp] at hq
    rw [hs]
    by_cases hlt : q < c.packets.length
    · rw [List.getElem?_append_left hlt] at hq
      exact h.completed hq
    · have hn : q ∉ c.settled := fun hm =>
        hlt (List.mem_range.mp (h.once.mem_iff.mp (List.mem_append_right _ hm)))
      rw [List.getElem?_append_right (Nat.le_of_not_lt hlt)] at hq
      obtain rfl : packet' = packet := by
        have hm := List.mem_of_getElem? hq
        simpa using hm
      simp [hc, hn]

/-- The packets in hand are those that are kept and the one that is just handled. The numbers under
which packets wait for their responses are their own. -/
structure Custody (hand : List PacketId) (c : Connection) : Prop where
  accounted : Accounted (hand ++ c.waiting) c
  fresh : ∀ s ∈ c.senders, ∀ p, s.stage = .numbered p → p.completed = false
  keys : (c.pending.map (·.1)).Nodup
  keyed : ∀ q ∈ c.pending, c.numbers[q.2]? = some q.1

namespace Custody

variable {hand : List PacketId} {c c' : Connection} {p : PacketId}

theorem congr (h : Custody hand c) (hp : c'.packets = c.packets) (hs : c'.settled = c.settled)
    (hw : c'.waiting = c.waiting) (hf : ∀ s ∈ c'.senders, ∀ p, s.stage = .numbered p →
      p.completed = false) (hq : c'.pending = c.pending) : Custody hand c' :=
  ⟨hw ▸ h.accounted.congr hp hs, hf, hq ▸ h.keys, by
    rw [hq, numbers, hp]
    exact h.keyed⟩

theorem quiet (h : Custody hand c) (q : Quiet c c') : Custody hand c' :=
  h.congr q.packets q.settled q.waiting (q.senders ▸ h.fresh) q.pending

theorem record (h : Custody hand c) {e : Event} (he : e.completion? = none) :
    Custody hand (c.record e) := by
  refine h.congr rfl ?_ rfl h.fresh rfl
  simp [settled, queued, ran, Connection.record, he]

theorem complete (h : Custody (p :: hand) c) (r : PacketResult) :
    Custody hand (c.complete p r) := by
  have k := c.completes_complete p r
  obtain ⟨ho, hr, hp, hs, -⟩ := k.fields
  have hw : (c.complete p r).waiting = c.waiting := by rw [waiting, ho, hr, hp]; rfl
  refine ⟨hw ▸ Accounted.complete h.accounted r, hs ▸ h.fresh, hp ▸ h.keys, ?_⟩
  rw [hp, k.numbers]
  exact h.keyed

theorem failPending (h : Custody hand c) (f : Failure) : Custody hand (c.failPending f) := by
  have k := c.completes_failAll (c.pending.map (·.2)) f
  obtain ⟨ho, -, -, hs, -⟩ := k.fields
  have moved : (hand ++ c.waiting).Perm
      (c.pending.map (·.2) ++ (hand ++ (c.outgoing ++ c.retry))) := by
    rw [waiting, ← List.append_assoc]
    exact List.perm_append_comm
  have failed := (h.accounted.perm moved).failAll f
  refine ⟨failed.perm ?_ |>.congr rfl rfl, hs ▸ h.fresh, List.nodup_nil,
    by simp [Connection.failPending]⟩
  simp [waiting, Connection.failPending, ho]

theorem failRetry (h : Custody hand c) (f : Failure) : Custody hand (c.failRetry f) := by
  have k := c.completes_failAll c.retry f
  obtain ⟨ho, -, hp, hs, -⟩ := k.fields
  have moved : (hand ++ c.waiting).Perm
      (c.retry ++ (hand ++ (c.outgoing ++ c.pending.map (·.2)))) :=
    List.perm_iff_count.mpr fun q => by simp only [waiting, List.count_append]; omega
  have failed := (h.accounted.perm moved).failAll f
  refine ⟨failed.perm ?_ |>.congr rfl rfl, hs ▸ h.fresh, hp ▸ h.keys, ?_⟩
  · simp [waiting, Connection.failRetry, ho]
  · simp only [Connection.failRetry, hp]
    exact k.numbers ▸ h.keyed

theorem failOutgoing (h : Custody hand c) (f : Failure) : Custody hand (c.failOutgoing f) := by
  have k := c.completes_failAll c.outgoing f
  obtain ⟨-, -, hp, hs, -⟩ := k.fields
  have moved : (hand ++ c.waiting).Perm
      (c.outgoing ++ (hand ++ (c.retry ++ c.pending.map (·.2)))) :=
    List.perm_iff_count.mpr fun q => by simp only [waiting, List.count_append]; omega
  have failed := (h.accounted.perm moved).failAll f
  refine ⟨failed.perm ?_ |>.congr rfl rfl, hs ▸ h.fresh, hp ▸ h.keys, ?_⟩
  · simp [waiting, Connection.failOutgoing]
  · simp only [Connection.failOutgoing, hp]
    exact k.numbers ▸ h.keyed

theorem updatePacket (h : Custody hand c) (p : PacketId) {f : Packet → Packet}
    (hc : ∀ q, (f q).completed = q.completed) (hx : ∀ q, (f q).xid = q.xid) :
    Custody hand (c.updatePacket p f) := by
  refine ⟨h.accounted.repack (c.map_updatePacket p hc) (.refl _), h.fresh, h.keys, ?_⟩
  rw [c.numbers_updatePacket p hx]
  exact h.keyed

theorem takes (h : Custody [] c) (t : Takes c p c') : Custody [p] c' := by
  have same : c'.packets = c.packets ∧ c'.settled = c.settled ∧ c'.senders = c.senders ∧
      c'.pending = c.pending := by
    cases t <;> exact ⟨rfl, rfl, rfl, rfl⟩
  have taken : c.waiting.Perm ([p] ++ c'.waiting) := by
    cases t with
    | again head => simp [waiting, head]
    | first none head => simp [waiting, head]
  obtain ⟨hp, hs, hsend, hq⟩ := same
  refine ⟨(h.accounted.perm taken).congr hp hs, hsend ▸ h.fresh, hq ▸ h.keys, ?_⟩
  rw [hq, numbers, hp]
  exact h.keyed

theorem again (h : Custody [p] c) {retry : List PacketId} (hr : retry.Perm (p :: c.retry)) :
    Custody [] { c with retry } := by
  refine ⟨h.accounted.perm ?_ |>.congr rfl rfl, h.fresh, h.keys, h.keyed⟩
  refine List.perm_iff_count.mpr fun q => ?_
  have moved := hr.count_eq q
  simp only [waiting, List.count_append, List.count_cons, List.count_nil] at moved ⊢
  omega

theorem pending_ne (h : Custody [p] c) (distinct : c.numbers.Nodup) {x : Xid}
    (number : c.numbers[p]? = some x) : ∀ q ∈ c.pending, q.1 ≠ x := by
  have absent : p ∉ c.waiting :=
    (List.nodup_cons.mp (List.nodup_append.mp h.accounted.nodup).1).1
  intro q hq he
  have hlt : q.2 < c.numbers.length := (List.getElem?_eq_some_iff.mp (h.keyed q hq)).1
  have same : q.2 = p :=
    (List.getElem?_inj hlt distinct).mp ((h.keyed q hq).trans (he ▸ number.symm))
  exact absent (same ▸ List.mem_append_right _ (List.mem_map_of_mem hq))

theorem filter_pending (h : Custody [p] c) (distinct : c.numbers.Nodup) {x : Xid}
    (number : c.numbers[p]? = some x) : c.pending.filter (fun q => q.1 != x) = c.pending :=
  List.filter_eq_self.mpr fun q hq => by simpa using h.pending_ne distinct number q hq

theorem await (h : Custody [p] c) (distinct : c.numbers.Nodup) {packet : Packet}
    (hp : c.packets[p]? = some packet) :
    Custody [] { c with
      pending := c.pending.filter (fun q => q.1 != packet.xid) ++ [(packet.xid, p)] } := by
  have hnum : c.numbers[p]? = some packet.xid := by simp [numbers, hp]
  have others := h.pending_ne distinct hnum
  rw [h.filter_pending distinct hnum]
  refine ⟨h.accounted.perm ?_ |>.congr rfl rfl, h.fresh, ?_, ?_⟩
  · refine List.perm_iff_count.mpr fun q => ?_
    simp only [waiting, List.map_append, List.map_cons, List.map_nil, List.count_append,
      List.count_nil]
    omega
  · simp only [List.map_append, List.map_cons, List.map_nil]
    refine List.nodup_append.mpr ⟨h.keys, by simp, ?_⟩
    rintro x hx y hy rfl
    obtain ⟨q, hq, rfl⟩ := List.mem_map.mp hx
    exact others q hq (by simpa using hy)
  · intro q hq
    rcases List.mem_append.mp hq with hq | hq
    · exact h.keyed q hq
    · obtain rfl : q = (packet.xid, p) := by simpa using hq
      exact hnum

theorem release (h : Custody [] c) {x : Xid} (known : c.pending.lookup x = some p) :
    Custody [p] { c with pending := c.pending.filter (·.1 != x) } := by
  obtain ⟨l, r, split, before⟩ := List.lookup_eq_some_iff.mp known
  have keys := h.keys
  rw [split, List.map_append, List.map_cons] at keys
  have after : ∀ q ∈ r, q.1 ≠ x := by
    intro q hq he
    have hm : q.1 ∈ r.map (·.1) := List.mem_map_of_mem hq
    exact (List.nodup_cons.mp (List.nodup_append.mp keys).2.1).1 (he ▸ hm)
  have left : c.pending.filter (·.1 != x) = l ++ r := by
    have hl : l.filter (·.1 != x) = l := List.filter_eq_self.mpr fun q hq => by
      rw [bne_comm]
      exact before q hq
    have hr : r.filter (·.1 != x) = r := List.filter_eq_self.mpr fun q hq => by
      simpa using after q hq
    rw [split, List.filter_append, hl, List.filter_cons_of_neg (by simp), hr]
  rw [left]
  refine ⟨h.accounted.perm ?_ |>.congr rfl rfl, h.fresh, ?_, ?_⟩
  · refine List.perm_iff_count.mpr fun q => ?_
    simp only [waiting, split, List.map_append, List.map_cons, List.count_append, List.count_cons,
      List.count_nil]
    omega
  · rw [List.map_append]
    exact (List.nodup_cons.mp (List.perm_middle.nodup_iff.mp keys)).2
  · intro q hq
    refine h.keyed q (split ▸ ?_)
    rcases List.mem_append.mp hq with hq | hq
    · exact List.mem_append_left _ hq
    · exact List.mem_append_right _ (List.mem_cons_of_mem _ hq)

theorem senders (h : Custody hand c) {senders : List Sender} {outstanding : Nat} {nextXid : Xid}
    {nextTicket : Ticket}
    (hf : ∀ s ∈ senders, ∀ p, s.stage = .numbered p → p.completed = false) :
    Custody hand { c with senders, outstanding, nextXid, nextTicket } :=
  h.congr rfl rfl rfl hf rfl

theorem accept (h : Custody [] c) {l r : List Sender} {s : Sender} {packet : Packet}
    (split : c.senders = l ++ s :: r) (stage : s.stage = .numbered packet)
    (fresh : ∀ s ∈ l ++ r, ∀ p, s.stage = .numbered p → p.completed = false) :
    Custody [] { c with
      senders := l ++ r
      packets := c.packets ++ [packet]
      outgoing := c.outgoing ++ [c.packets.length] } := by
  have new : packet.completed = false := h.fresh s (by simp [split]) packet stage
  generalize hc : { c with
    senders := l ++ r
    packets := c.packets ++ [packet]
    outgoing := c.outgoing ++ [c.packets.length] } = c'
  have accounted : Accounted (c.packets.length :: ([] ++ c.waiting)) c' := by
    rw [← hc]
    exact h.accounted.append rfl rfl new
  have numbers : c'.numbers = c.numbers ++ [packet.xid] := by
    rw [← hc]
    simp [Connection.numbers]
  have pending : c'.pending = c.pending := by rw [← hc]
  have waiting : (c.packets.length :: ([] ++ c.waiting)).Perm ([] ++ c'.waiting) := by
    rw [← hc]
    refine List.perm_iff_count.mpr fun q => ?_
    simp only [Connection.waiting, List.count_append, List.count_cons, List.count_nil]
    omega
  refine ⟨accounted.perm waiting, ?_, pending ▸ h.keys, ?_⟩
  · rw [← hc]
    exact fresh
  · intro q hq
    have hk := h.keyed q (pending ▸ hq)
    rw [numbers, List.getElem?_append_left (List.getElem?_eq_some_iff.mp hk).1]
    exact hk

theorem deliver (h : Custody [] c) {k : Completion} {rest : List Dispatch}
    (head : c.dispatches = .completion k :: rest) (ls : List ListenerId) :
    Custody []
      (({ c with dispatches := rest }.record (.delivered (.completion k) ls)).invoke k) := by
  have before : Custody [] ({ c with dispatches := rest }.record (.delivered (.completion k) ls)) :=
    ⟨h.accounted.repack rfl (settled_deliver head ls), h.fresh, h.keys, h.keyed⟩
  revert before
  generalize { c with dispatches := rest }.record (.delivered (.completion k) ls) = b
  intro before
  have hm := b.map_invoke k (g := (·.completed)) fun _ _ => rfl
  have hn : (b.invoke k).numbers = b.numbers := b.map_invoke k fun _ _ => rfl
  obtain ⟨packets, latency, hk⟩ := b.invoke_shape k
  rw [hk] at hm hn ⊢
  exact ⟨before.accounted.repack hm (.refl _), before.fresh, before.keys, by
    rw [hn]
    exact before.keyed⟩

theorem start (settings : Settings) (roster : Roster) : Custody [] (.start settings roster) :=
  ⟨⟨.refl _, by simp [Connection.start]⟩, by simp [Connection.start], List.nodup_nil,
    by simp [Connection.start]⟩

theorem send (h : Custody [] c) {t : Ticket} (m : SendMove c t c') : Custody [] c' := by
  have fresh := m.fresh h.fresh
  cases m with
  | begun op request callback => exact h.senders fresh
  | declined => exact record (h.senders fresh) rfl
  | admitted split stage room => exact record (h.senders fresh) rfl
  | turnedAway split stage full => exact record (h.senders fresh) rfl
  | numbered split stage => exact h.senders fresh
  | accepted split stage live => exact record (h.accept split stage fresh) rfl
  | tooLate split stage closed => exact record (h.senders fresh) rfl

/-- No step loses a packet or keeps it twice, unless numbers meet on a session. -/
theorem move (h : Custody [] c) (distinct : ∀ d, c.carrier = .driving d → c.numbers.Nodup)
    {who : Option Ticket} (m : Move c who c') : Custody [] c' := by
  cases m with
  | quiet q => exact h.quiet q
  | sending m => exact h.send m
  | opened seeking q => exact (h.record rfl).quiet q
  | skipped takes packet done q =>
    obtain ⟨p, hp, hc⟩ := (h.takes takes).accounted.incomplete List.mem_cons_self
    obtain rfl := Option.some.inj (hp.symm.trans packet)
    exact absurd done (by simp [hc])
  | tooLarge takes packet q => exact ((h.takes takes).complete _).quiet q
  | @written d id p c₁ _ driving takes packet q =>
    have marked := (h.takes takes).updatePacket id (f := (·.markSent c₁.now)) (fun _ => rfl)
      fun _ => rfl
    have kept : (c₁.updatePacket id (·.markSent c₁.now)).packets[id]? =
        some (p.markSent c₁.now) := by
      simp [Connection.updatePacket, packet]
    have same : (c₁.updatePacket id (·.markSent c₁.now)).numbers = c.numbers :=
      (c₁.numbers_updatePacket id (f := (·.markSent c₁.now)) fun _ => rfl).trans takes.numbers
    have awaited := marked.await (same ▸ distinct d driving) kept
    exact quiet (record awaited rfl) q
  | stalled takes q => exact quiet ((h.takes takes).again (.refl _)) q
  | broken driving takes own q =>
    refine quiet (failPending (record ?_ rfl) _) q
    exact (h.takes takes).again (List.perm_append_singleton _ _)
  | stray driving unknown q => exact (h.record rfl).quiet q
  | @answered d r id c₁ driving known q =>
    have arrived := (h.record (e := .received (.response r)) rfl).quiet q
    have known' : c₁.pending.lookup r.xid = some id := q.pending ▸ known
    refine complete (updatePacket ?_ id ?_ ?_) _
    · exact arrived.release known'
    · exact fun _ => rfl
    · exact fun _ => rfl
  | lost driving own before after =>
    exact (((h.quiet before).record rfl).failPending _).quiet after
  | gaveUp seeking own before after => exact ((h.quiet before).failOutgoing _).quiet after
  | closedOut before after =>
    exact ((((h.quiet before).failPending _).failRetry _).failOutgoing _).quiet after
  | delivered head ls => exact h.deliver head ls

end Custody

theorem Numbered.distinct {c : Connection} {n : Nat} (h : Numbered c n) : c.numbers.Nodup :=
  h.nodup.sublist (List.sublist_append_left _ _)

/-- While there are numbers enough, every packet is accounted for. -/
theorem Reachable.custody {settings : Settings} {roster : Roster} {c : Connection}
    (h : Reachable settings roster c) (few : c.sends < UInt32.size) : Custody [] c := by
  induction h with
  | start => exact .start settings roster
  | step a hr hs ih =>
    have m := move_of_step hs
    have few' := Nat.lt_of_le_of_lt m.sends_le few
    obtain ⟨n, hn⟩ := hr.numbered few'
    exact (ih few').move (fun _ _ => hn.distinct) m

end ServiceDirectory.Connection
