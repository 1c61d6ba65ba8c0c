import ServiceDirectory.Proofs.Connection.Marks

/-! The line of packets that are not written to the end: the one to be written again comes first,
then the queue. They stand in it in the order in which they were accepted, behind all packets that
were written, and none of them is completed. This does not depend on the numbers of packets. -/
namespace ServiceDirectory

theorem Packet.isOversized_of_complete? {p q : Packet} {now : Nat} {r : PacketResult}
    (h : p.complete? now r = some q) : q.isOversized = p.isOversized := by
  unfold Packet.complete? at h
  by_cases hp : p.completed
  · simp [hp] at h
  · cases r <;> simp [hp] at h <;> rw [← h] <;> rfl

namespace Connection

/-- The packets that are not written to the end, in the order in which they will be written. -/
def unwritten (c : Connection) : List PacketId := c.retry ++ c.outgoing

theorem Takes.unwritten {c c' : Connection} {id : PacketId} (t : Takes c id c') :
    c.unwritten = id :: c'.unwritten := by
  cases t with
  | again head => simp [Connection.unwritten, head]
  | first none head => simp [Connection.unwritten, none, head]

def completeds (c : Connection) : List Bool := c.packets.map (·.completed)

def oversized (c : Connection) : List Bool := c.packets.map (·.isOversized)

theorem length_completeds (c : Connection) : c.completeds.length = c.packets.length :=
  List.length_map _

theorem getElem?_completeds_complete (c : Connection) {p q : PacketId} (h : p ≠ q)
    (r : PacketResult) : (c.complete p r).completeds[q]? = c.completeds[q]? := by
  unfold complete completeds
  split
  · rfl
  · simp [publish, record, List.getElem?_set_ne h]

theorem length_completeds_complete (c : Connection) (p : PacketId) (r : PacketResult) :
    (c.complete p r).completeds.length = c.completeds.length := by
  rw [length_completeds, length_completeds, length_packets_complete]

theorem oversized_complete (c : Connection) (p : PacketId) (r : PacketResult) :
    (c.complete p r).oversized = c.oversized := by
  unfold complete oversized
  split
  · rfl
  · rename_i packet done
    obtain ⟨old, hold, hdone⟩ := Option.bind_eq_some_iff.mp done
    exact map_set_of_getElem? hold (Packet.isOversized_of_complete? hdone)

theorem oversized_failAll (c : Connection) (ps : List PacketId) (f : Failure) :
    (c.failAll ps f).oversized = c.oversized := by
  induction ps generalizing c with
  | nil => rfl
  | cons p ps ih => exact (ih (c.complete p (.error f))).trans (c.oversized_complete p _)

/-- A line of packets that are not written to the end, behind all that are. -/
structure Ordered (line : List PacketId) (c : Connection) : Prop where
  sorted : line.Pairwise (· < ·)
  incomplete : ∀ p ∈ line, c.completeds[p]? = some false
  descending : c.writes.Pairwise (· > ·)
  behind : ∀ q ∈ c.writes, q < c.completeds.length ∧ ∀ p ∈ line, q < p

namespace Ordered

variable {line line' : List PacketId} {c c' : Connection} {p : PacketId}

theorem congr (h : Ordered line c) (hc : c'.completeds = c.completeds)
    (hw : c'.writes = c.writes) : Ordered line c' :=
  ⟨h.sorted, hc ▸ h.incomplete, hw ▸ h.descending, hw ▸ hc ▸ h.behind⟩

theorem sublist (h : Ordered line c) (k : line'.Sublist line) : Ordered line' c :=
  ⟨h.sorted.sublist k, fun p hp => h.incomplete p (k.mem hp), h.descending,
    fun q hq => ⟨(h.behind q hq).1, fun p hp => (h.behind q hq).2 p (k.mem hp)⟩⟩

theorem lt_length (h : Ordered line c) (hp : p ∈ line) : p < c.packets.length :=
  c.length_completeds ▸ (List.getElem?_eq_some_iff.mp (h.incomplete p hp)).1

theorem complete (h : Ordered line c) (apart : p ∉ line) (r : PacketResult) :
    Ordered line (c.complete p r) := by
  have written : (c.complete p r).writes = c.writes :=
    writes_of_marks (c.completes_complete p r).marks
  refine ⟨h.sorted, fun q hq => ?_, written ▸ h.descending, ?_⟩
  · have other : p ≠ q := by
      rintro rfl
      exact apart hq
    rw [getElem?_completeds_complete c other]
    exact h.incomplete q hq
  · rw [written, length_completeds_complete]
    exact h.behind

theorem failAll {ps : List PacketId} (h : Ordered line c) (apart : ∀ p ∈ ps, p ∉ line)
    (f : Failure) : Ordered line (c.failAll ps f) := by
  induction ps generalizing c with
  | nil => exact h
  | cons p ps ih =>
    exact ih (h.complete (apart p List.mem_cons_self) (.error f))
      fun q hq => apart q (List.mem_cons_of_mem p hq)

theorem write (h : Ordered (p :: line) c) (hc : c'.completeds = c.completeds)
    (hw : c'.writes = p :: c.writes) : Ordered line c' := by
  obtain ⟨first, rest⟩ := List.pairwise_cons.mp h.sorted
  refine ⟨rest, fun q hq => hc ▸ h.incomplete q (List.mem_cons_of_mem p hq), ?_, ?_⟩
  · rw [hw]
    exact List.pairwise_cons.mpr
      ⟨fun q hq => (h.behind q hq).2 p List.mem_cons_self, h.descending⟩
  · rw [hw, hc]
    intro q hq
    rcases List.mem_cons.mp hq with rfl | hq
    · exact ⟨(List.getElem?_eq_some_iff.mp (h.incomplete q List.mem_cons_self)).1, first⟩
    · exact ⟨(h.behind q hq).1, fun r hr => (h.behind q hq).2 r (List.mem_cons_of_mem p hr)⟩

theorem append (h : Ordered line c) (hc : c'.completeds = c.completeds ++ [false])
    (hw : c'.writes = c.writes) : Ordered (line ++ [c.packets.length]) c' := by
  have before : ∀ p ∈ line, p < c.packets.length := fun p hp => h.lt_length hp
  have last : (c.completeds ++ [false])[c.packets.length]? = some false := by
    rw [← length_completeds]
    simp
  refine ⟨List.pairwise_append.mpr ⟨h.sorted, List.pairwise_singleton _ _, ?_⟩, ?_,
    hw ▸ h.descending, ?_⟩
  · intro p hp q hq
    obtain rfl := List.mem_singleton.mp hq
    exact before p hp
  · intro p hp
    rw [hc]
    rcases List.mem_append.mp hp with hp | hp
    · rw [List.getElem?_append_left (c.length_completeds ▸ before p hp)]
      exact h.incomplete p hp
    · obtain rfl := List.mem_singleton.mp hp
      exact last
  · rw [hw, hc]
    intro q hq
    have short := (h.behind q hq).1
    refine ⟨?_, fun p hp => ?_⟩
    · rw [List.length_append]
      exact Nat.lt_add_right _ short
    rcases List.mem_append.mp hp with hp | hp
    · exact (h.behind q hq).2 p hp
    · obtain rfl := List.mem_singleton.mp hp
      exact c.length_completeds ▸ short

end Ordered

/-- The packets that are not written to the end, and the one that is just handled, stand in line.
One packet at most is written again. -/
structure Lined (hand : List PacketId) (c : Connection) : Prop where
  ordered : Ordered (hand ++ c.unwritten) c
  short : (hand ++ c.retry).length ≤ 1
  fits : ∀ p ∈ c.retry, c.oversized[p]? = some false
  awaited : ∀ q ∈ c.pending, q.2 ∈ c.writes
  fresh : ∀ s ∈ c.senders, ∀ p, s.stage = .numbered p → p.completed = false

namespace Lined

variable {hand : List PacketId} {c c' : Connection} {p : PacketId}

theorem congr (h : Lined hand c) (hp : c'.packets = c.packets) (ho : c'.outgoing = c.outgoing)
    (hr : c'.retry = c.retry) (hq : c'.pending = c.pending) (hs : c'.senders = c.senders)
    (hw : c'.writes = c.writes) : Lined hand c' := by
  have line : c'.unwritten = c.unwritten := by rw [unwritten, hr, ho]; rfl
  refine ⟨line ▸ h.ordered.congr (by rw [completeds, hp]; rfl) hw, hr ▸ h.short, ?_,
    hq ▸ hw ▸ h.awaited, hs ▸ h.fresh⟩
  rw [hr, oversized, hp]
  exact h.fits

theorem quiet (h : Lined hand c) (q : Quiet c c') : Lined hand c' :=
  h.congr q.packets q.outgoing q.retry q.pending q.senders (writes_of_marks q.marks)

theorem record (h : Lined hand c) {e : Event} (he : e.written? = none) :
    Lined hand (c.record e) :=
  h.congr rfl rfl rfl rfl rfl (List.filterMap_cons_none he)

theorem complete (h : Lined hand c) (apart : p ∉ hand ++ c.unwritten) (r : PacketResult) :
    Lined hand (c.complete p r) := by
  have k := c.completes_complete p r
  obtain ⟨ho, hr, hq, hs, -⟩ := k.fields
  have line : (c.complete p r).unwritten = c.unwritten := by rw [unwritten, ho, hr]; rfl
  refine ⟨line ▸ h.ordered.complete apart r, hr ▸ h.short, ?_, ?_, hs ▸ h.fresh⟩
  · rw [hr, oversized_complete]
    exact h.fits
  · rw [hq, writes_of_marks k.marks]
    exact h.awaited

theorem failAll {ps : List PacketId} (h : Lined hand c)
    (apart : ∀ p ∈ ps, p ∉ hand ++ c.unwritten) (f : Failure) : Lined hand (c.failAll ps f) := by
  induction ps generalizing c with
  | nil => exact h
  | cons p ps ih =>
    have k := c.completes_complete p (.error f)
    obtain ⟨ho, hr, -⟩ := k.fields
    have line : (c.complete p (.error f)).unwritten = c.unwritten := by rw [unwritten, ho, hr]; rfl
    refine ih (h.complete (apart p List.mem_cons_self) (.error f)) fun q hq => ?_
    rw [line]
    exact apart q (List.mem_cons_of_mem p hq)

theorem apart_of_mem_writes (h : Lined hand c) (hp : p ∈ c.writes) : p ∉ hand ++ c.unwritten :=
  fun hm => Nat.lt_irrefl p ((h.ordered.behind p hp).2 p hm)

theorem failPending (h : Lined hand c) (f : Failure) : Lined hand (c.failPending f) := by
  have failed : Lined hand (c.failAll (c.pending.map (·.2)) f) := by
    refine h.failAll (fun p hp => ?_) f
    obtain ⟨q, hq, rfl⟩ := List.mem_map.mp hp
    exact h.apart_of_mem_writes (h.awaited q hq)
  exact ⟨failed.ordered.congr rfl rfl, failed.short, failed.fits, List.forall_mem_nil _,
    failed.fresh⟩

theorem failRetry (h : Lined hand c) (f : Failure) : Lined hand (c.failRetry f) := by
  have k := c.completes_failAll c.retry f
  obtain ⟨ho, -, hq, hs, -⟩ := k.fields
  have sorted := (h.ordered.sublist (List.sublist_append_right _ _)).sorted
  have apart : ∀ p ∈ c.retry, p ∉ hand ++ c.outgoing := by
    intro p hp hm
    have whole := h.ordered.sorted
    rcases List.mem_append.mp hm with hm | hm
    · exact Nat.lt_irrefl p
        ((List.pairwise_append.mp whole).2.2 p hm p (List.mem_append_left _ hp))
    · exact Nat.lt_irrefl p ((List.pairwise_append.mp sorted).2.2 p hp p hm)
  have left : Ordered (hand ++ c.outgoing) c :=
    h.ordered.sublist ((List.Sublist.refl hand).append (List.sublist_append_right _ _))
  have line : (c.failRetry f).unwritten = c.outgoing := ho
  have short := h.short
  refine ⟨?_, ?_, List.forall_mem_nil _, ?_, hs ▸ h.fresh⟩
  · rw [line]
    exact (left.failAll apart f).congr rfl rfl
  · rw [List.length_append] at short
    change (hand ++ []).length ≤ 1
    rw [List.append_nil]
    omega
  · change ∀ q ∈ (c.failAll c.retry f).pending, q.2 ∈ (c.failAll c.retry f).writes
    rw [hq, writes_of_marks k.marks]
    exact h.awaited

theorem failOutgoing (h : Lined hand c) (f : Failure) : Lined hand (c.failOutgoing f) := by
  have k := c.completes_failAll c.outgoing f
  obtain ⟨-, hr, hq, hs, -⟩ := k.fields
  have split : hand ++ c.unwritten = (hand ++ c.retry) ++ c.outgoing := by
    rw [unwritten, List.append_assoc]
  have sorted := h.ordered.sorted
  rw [split] at sorted
  have apart : ∀ p ∈ c.outgoing, p ∉ hand ++ c.retry := fun p hp hm =>
    Nat.lt_irrefl p ((List.pairwise_append.mp sorted).2.2 p hm p hp)
  have left : Ordered (hand ++ c.retry) c :=
    h.ordered.sublist (split ▸ List.sublist_append_left _ _)
  have line : (c.failOutgoing f).unwritten = c.retry := by
    rw [unwritten]
    exact (congrArg (· ++ []) hr).trans (List.append_nil _)
  refine ⟨?_, ?_, ?_, ?_, hs ▸ h.fresh⟩
  · rw [line]
    exact (left.failAll apart f).congr rfl rfl
  · change (hand ++ (c.failAll c.outgoing f).retry).length ≤ 1
    rw [hr]
    exact h.short
  · change ∀ p ∈ (c.failAll c.outgoing f).retry, (c.failAll c.outgoing f).oversized[p]? = _
    rw [hr, oversized_failAll]
    exact h.fits
  · change ∀ q ∈ (c.failAll c.outgoing f).pending, q.2 ∈ (c.failAll c.outgoing f).writes
    rw [hq, writes_of_marks k.marks]
    exact h.awaited

theorem updatePacket (h : Lined hand c) (p : PacketId) {f : Packet → Packet}
    (hc : ∀ q, (f q).completed = q.completed) (ho : ∀ q, (f q).isOversized = q.isOversized) :
    Lined hand (c.updatePacket p f) := by
  refine ⟨h.ordered.congr (c.map_updatePacket p hc) rfl, h.short, ?_, h.awaited, h.fresh⟩
  have same : (c.updatePacket p f).oversized = c.oversized := c.map_updatePacket p ho
  rw [same]
  exact h.fits

theorem takes (h : Lined [] c) (t : Takes c p c') : Lined [p] c' := by
  have line : [] ++ c.unwritten = [p] ++ c'.unwritten := t.unwritten
  have ordered : Ordered ([p] ++ c'.unwritten) c := line ▸ h.ordered
  cases t with
  | @again retry head =>
    have short := h.short
    rw [head] at short
    refine ⟨ordered.congr rfl rfl, short, fun q hq => ?_, h.awaited, h.fresh⟩
    exact h.fits q (head ▸ List.mem_cons_of_mem p hq)
  | @first outgoing none head =>
    refine ⟨ordered.congr rfl rfl, ?_, h.fits, h.awaited, h.fresh⟩
    change ([p] ++ c.retry).length ≤ 1
    rw [none]
    exact Nat.le_refl 1

theorem retry_nil (h : Lined [p] c) : c.retry = [] := by
  have short := h.short
  rw [List.length_append, List.length_singleton] at short
  exact List.length_eq_zero_iff.mp (by omega)

theorem drop (h : Lined [p] c) : Lined [] c :=
  ⟨h.ordered.sublist (List.sublist_append_right _ _), by simp [h.retry_nil], h.fits, h.awaited,
    h.fresh⟩

theorem again (h : Lined [p] c) {retry : List PacketId} (hr : retry = p :: c.retry)
    (fits : c.oversized[p]? = some false) : Lined [] { c with retry } := by
  have one : retry = [p] := by rw [hr, h.retry_nil]
  have line : ({ c with retry } : Connection).unwritten = [p] ++ c.unwritten := by
    rw [unwritten, unwritten, hr]
    rfl
  refine ⟨?_, by simp [one], fun q hq => ?_, h.awaited, h.fresh⟩
  · rw [List.nil_append, line]
    exact h.ordered.congr rfl rfl
  · have hq : q ∈ retry := hq
    rw [one, List.mem_singleton] at hq
    exact hq ▸ fits

theorem written (h : Lined [p] c) (pending : List (Xid × PacketId))
    (hp : ∀ q ∈ pending, q ∈ c.pending ∨ q.2 = p) :
    Lined [] ({ c with pending }.record (.written p)) := by
  have written : ({ c with pending }.record (.written p)).writes = p :: c.writes := rfl
  refine ⟨h.ordered.write rfl written, by simp [h.retry_nil, Connection.record], h.fits, ?_,
    h.fresh⟩
  rw [written]
  intro q hq
  rcases hp q hq with hq | rfl
  · exact List.mem_cons_of_mem p (h.awaited q hq)
  · exact List.mem_cons_self

theorem senders (h : Lined [] c) {senders : List Sender} {outstanding : Nat} {nextXid : Xid}
    {nextTicket : Ticket}
    (hs : ∀ s ∈ senders, ∀ p, s.stage = .numbered p → p.completed = false) :
    Lined [] { c with senders, outstanding, nextXid, nextTicket } :=
  ⟨h.ordered.congr rfl rfl, h.short, h.fits, h.awaited, hs⟩

theorem accept (h : Lined [] c) {packet : Packet} (new : packet.completed = false)
    {senders : List Sender}
    (fresh : ∀ s ∈ senders, ∀ p, s.stage = .numbered p → p.completed = false) :
    Lined [] { c with
      senders
      packets := c.packets ++ [packet]
      outgoing := c.outgoing ++ [c.packets.length] } := by
  have more : (c.packets ++ [packet]).map (·.completed) = c.completeds ++ [false] := by
    rw [List.map_append, completeds, List.map_singleton, new]
  have line : c.retry ++ (c.outgoing ++ [c.packets.length]) =
      ([] ++ c.unwritten) ++ [c.packets.length] := by
    rw [List.nil_append, unwritten, List.append_assoc]
  refine ⟨?_, h.short, fun q hq => ?_, h.awaited, fresh⟩
  · change Ordered (c.retry ++ (c.outgoing ++ [c.packets.length])) _
    rw [line]
    exact h.ordered.append more rfl
  · have old := h.fits q hq
    have grown : (c.packets ++ [packet]).map (·.isOversized) =
        c.oversized ++ [packet.isOversized] := List.map_append
    change ((c.packets ++ [packet]).map (·.isOversized))[q]? = some false
    rw [grown, List.getElem?_append_left (List.getElem?_eq_some_iff.mp old).1]
    exact old

theorem send (h : Lined [] c) {t : Ticket} (m : SendMove c t c') : Lined [] c' := by
  have fresh := m.fresh h.fresh
  cases m with
  | begun op request callback => exact h.senders fresh
  | declined => exact record (h.senders fresh) rfl
  | admitted split stage room => exact record (h.senders fresh) rfl
  | turnedAway split stage full => exact record (h.senders fresh) rfl
  | numbered split stage => exact h.senders fresh
  | @accepted l s p r split stage live =>
    have new : p.completed = false := h.fresh s (by simp [split]) p stage
    have accepted := h.accept new fresh
    exact accepted.record rfl
  | tooLate split stage closed => exact record (h.senders fresh) rfl

theorem deliver (h : Lined [] c) (k : Completion) (rest : List Dispatch) (ls : List ListenerId) :
    Lined [] (({ c with dispatches := rest }.record (.delivered (.completion k) ls)).invoke k) := by
  have before : Lined [] ({ c with dispatches := rest }.record (.delivered (.completion k) ls)) :=
    h.congr rfl rfl rfl rfl rfl rfl
  revert before
  generalize { c with dispatches := rest }.record (.delivered (.completion k) ls) = b
  intro before
  have hc : (b.invoke k).completeds = b.completeds := b.map_invoke k fun _ _ => rfl
  have ho : (b.invoke k).oversized = b.oversized := b.map_invoke k fun _ _ => rfl
  obtain ⟨packets, latency, hk⟩ := b.invoke_shape k
  rw [hk] at hc ho ⊢
  exact ⟨before.ordered.congr hc rfl, before.short, by rw [ho]; exact before.fits, before.awaited,
    before.fresh⟩

theorem start (settings : Settings) (roster : Roster) : Lined [] (.start settings roster) :=
  ⟨⟨.nil, List.forall_mem_nil _, .nil, List.forall_mem_nil _⟩, Nat.zero_le _,
    List.forall_mem_nil _, List.forall_mem_nil _, List.forall_mem_nil _⟩

/-- No step puts packets out of their order. -/
theorem move (h : Lined [] c) {who : Option Ticket} (m : Move c who c') : Lined [] c' := by
  cases m with
  | quiet q => exact h.quiet q
  | sending m => exact h.send m
  | opened seeking q => exact (h.record rfl).quiet q
  | @skipped id p c₁ _ takes packet done q =>
    have first := (h.takes takes).ordered.incomplete id List.mem_cons_self
    rw [completeds, List.getElem?_map, packet] at first
    exact absurd (Option.some.inj first) (by simp [done])
  | @tooLarge id p c₁ _ takes packet q large =>
    -- A packet that is taken up has left the line, which is sorted, so it is not there twice.
    have taken := h.takes takes
    have apart : id ∉ [] ++ c₁.unwritten := fun hm =>
      Nat.lt_irrefl id ((List.pairwise_cons.mp taken.ordered.sorted).1 id hm)
    exact (taken.drop.complete apart _).quiet q
  | @written d id p c₁ _ driving takes packet q =>
    have marked := (h.takes takes).updatePacket id (f := (·.markSent c₁.now)) (fun _ => rfl)
      fun _ => rfl
    refine quiet (marked.written _ fun r hr => ?_) q
    rcases List.mem_append.mp hr with hr | hr
    · exact .inl (List.mem_filter.mp hr).1
    · exact .inr (by rw [List.mem_singleton.mp hr])
  | @stalled id p c₁ _ takes q packet fits =>
    refine quiet ((h.takes takes).again rfl ?_) q
    rw [oversized, List.getElem?_map, packet, ← fits]
    rfl
  | @broken d id p c₁ f _ driving takes own q ends packet fits =>
    -- The packet goes to the end of those that are written again, which is their head: there are
    -- no others.
    have taken := h.takes takes
    have put : c₁.retry ++ [id] = id :: c₁.retry := by rw [taken.retry_nil]; rfl
    refine quiet (failPending (record (taken.again put ?_) rfl) f) q
    rw [oversized, List.getElem?_map, packet, ← fits]
    rfl
  | stray driving unknown q => exact (h.record rfl).quiet q
  | @answered d r id c₁ driving known q =>
    have arrived : Lined [] c₁ := (h.record rfl).quiet q
    have known : c₁.pending.lookup r.xid = some id := q.pending ▸ known
    obtain ⟨l₁, l₂, split, -⟩ := List.lookup_eq_some_iff.mp known
    have waits : (r.xid, id) ∈ c₁.pending := by simp [split]
    have released : Lined [] { c₁ with pending := c₁.pending.filter (·.1 != r.xid) } :=
      ⟨arrived.ordered.congr rfl rfl, arrived.short, arrived.fits,
        fun s hs => arrived.awaited s (List.mem_filter.mp hs).1, arrived.fresh⟩
    have marked := released.updatePacket id (f := (·.markReceived c₁.now)) (fun _ => rfl)
      fun _ => rfl
    -- Who waits for a response has been written, and is not in the line any more.
    exact marked.complete (marked.apart_of_mem_writes (arrived.awaited _ waits)) _
  | lost driving own before after =>
    exact (((h.quiet before).record rfl).failPending _).quiet after
  | gaveUp seeking own before after => exact ((h.quiet before).failOutgoing _).quiet after
  | closedOut before after =>
    exact ((((h.quiet before).failPending _).failRetry _).failOutgoing _).quiet after
  | @delivered k rest head ls => exact h.deliver k rest ls

end Lined

theorem Reachable.lined {settings : Settings} {roster : Roster} {c : Connection}
    (h : Reachable settings roster c) : Lined [] c := by
  induction h with
  | start => exact .start settings roster
  | step a _ hs ih => exact ih.move (move_of_step hs)

theorem Quiet.unwritten {c c' : Connection} (q : Quiet c c') : c'.unwritten = c.unwritten := by
  rw [Connection.unwritten, q.retry, q.outgoing]
  rfl

theorem unwritten_failPending (c : Connection) (f : Failure) :
    (c.failPending f).unwritten = c.unwritten := by
  obtain ⟨outgoing, retry, -⟩ := (c.completes_failAll (c.pending.map (·.2)) f).fields
  change (c.failAll _ f).retry ++ (c.failAll _ f).outgoing = c.unwritten
  rw [outgoing, retry]
  rfl

/-- A packet that is put back takes its place in the line again. -/
theorem Halts.unwritten {b c : Connection} (h : Halts c b) (lined : Lined [] c) :
    b.unwritten = c.unwritten := by
  cases h with
  | quiet q => exact q.unwritten
  | @putBack id p c₁ takes packet fits =>
    have alone := (lined.takes takes).retry_nil
    rw [takes.unwritten, Connection.unwritten, Connection.unwritten, alone]
    rfl

theorem Move.unwritten_of_lost {c c' : Connection} {who : Option Ticket} (m : Move c who c')
    (lined : Lined [] c) (lost : c'.losses ≠ c.losses) : c'.unwritten = c.unwritten := by
  obtain ⟨-, same⟩ | ⟨_, _, _, _, -, -, -, -, -, -, same⟩ | ⟨_, f, b, -, -, halts, after, -⟩ :=
    m.marks_cases
  · exact absurd same lost
  · exact absurd same lost
  · rw [after.unwritten, unwritten_failPending]
    exact halts.unwritten lined

end Connection
end ServiceDirectory
