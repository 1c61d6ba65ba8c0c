import ServiceDirectory.Proofs.Connection.Custody
import ServiceDirectory.Proofs.Connection.Line

/-! What completes packets. Of the moves, few complete any: the arrival of a response, the loss of a
session, the failure of a request that is too long, the failure of the first search and the end of
the connection. Each completes packets that it finds in one place, with a result of its own. -/
namespace ServiceDirectory.Connection

def completions (c : Connection) : List Completion := c.queued ++ c.ran

/-- What a completion comes from that was not there before a step. -/
inductive Origin (c c' : Connection) (k : Completion) : Prop where
  | answered {r : ResponseFrame} (waits : (r.xid, k.packet) ∈ c.pending)
    (arrived : .received (.response r) :: c.history <:+ c'.history)
    (result : k.result = Packet.resultOf r)
  | tooLarge {packet : Packet} (here : c.packets[k.packet]? = some packet)
    (large : packet.isOversized = true)
    (result : k.result = .error (Framing.tooLarge packet.frameSize))
    (kept : k.packet ∈ c.unwritten)
  | lost {f : Failure} (waits : k.packet ∈ c.pending.map (·.2)) (ends : f.endsSession = true)
    (noted : c'.losses = f :: c.losses) (result : k.result = .error f)
  | gaveUp {s : Search} {f : Failure} (seeking : c.carrier = .seeking s)
    (first : s.resumes = false) (own : f.isOwn = true) (result : k.result = .error f)
    (kept : k.packet ∈ c.unwritten)
  | closed (closing : Closing c c') (kept : k.packet ∈ c.waiting)
    (result : k.result = .error .connectionClosed)

theorem mem_waiting_iff {c : Connection} {p : PacketId} :
    p ∈ c.waiting ↔ p ∈ c.unwritten ∨ p ∈ c.pending.map (·.2) := by
  rw [waiting, unwritten, List.mem_append, List.perm_append_comm.mem_iff]

theorem Origin.mem_waiting {c c' : Connection} {k : Completion} (o : Origin c c' k) :
    k.packet ∈ c.waiting := by
  cases o with
  | answered waits arrived result => exact mem_waiting_iff.mpr (.inr (List.mem_map_of_mem waits))
  | tooLarge here large result kept => exact mem_waiting_iff.mpr (.inl kept)
  | lost waits ends noted result => exact mem_waiting_iff.mpr (.inr waits)
  | gaveUp seeking first own result kept => exact mem_waiting_iff.mpr (.inl kept)
  | closed closing kept result => exact kept

theorem Quiet.completions {c c' : Connection} (q : Quiet c c') :
    c'.completions = c.completions := by
  rw [Connection.completions, q.queued, q.ran]
  rfl

theorem Takes.completions {c c' : Connection} {id : PacketId} (t : Takes c id c') :
    c'.completions = c.completions := by
  cases t <;> rfl

theorem Completes.mem_completions {kind : Completion → Prop} {c c' : Connection}
    (h : Completes kind c c') {k : Completion} (hk : k ∈ c'.completions) :
    k ∈ c.completions ∨ kind k := by
  obtain ⟨ks, hq, hks⟩ := h.queued
  rw [completions, hq, h.ran] at hk
  rcases List.mem_append.mp hk with hk | hk
  · exact (List.mem_append.mp hk).imp (List.mem_append_left _) (hks k)
  · exact .inl (List.mem_append_right _ hk)

theorem Halts.pending {b c : Connection} (h : Halts c b) : b.pending = c.pending := by
  cases h with
  | quiet q => exact q.pending
  | putBack takes packet fits => exact takes.pending

theorem Halts.queued {b c : Connection} (h : Halts c b) : b.queued = c.queued := by
  cases h with
  | quiet q => exact q.queued
  | putBack takes packet fits => cases takes <;> rfl

theorem Halts.ran {b c : Connection} (h : Halts c b) : b.ran = c.ran := by
  cases h with
  | quiet q => exact q.ran
  | putBack takes packet fits => cases takes <;> rfl

theorem Halts.completions {b c : Connection} (h : Halts c b) : b.completions = c.completions := by
  rw [Connection.completions, h.queued, h.ran]
  rfl

theorem Halts.origin {b c c' : Connection} (h : Halts c b) {f : Failure}
    (ends : f.endsSession = true) (q : Quiet ((b.record (.lost f)).failPending f) c')
    {k : Completion} (hk : k ∈ c'.completions) : k ∈ c.completions ∨ Origin c c' k := by
  have failed := completes_failAll (b.record (.lost f)) (b.pending.map (·.2)) f
  rw [q.completions] at hk
  rcases failed.mem_completions hk with old | ⟨waits, result⟩
  · exact .inl (h.completions ▸ old)
  · refine .inr (.lost (h.pending ▸ waits) ends ?_ result)
    rw [losses_of_marks ((h.marks_of_lost q).trans (marks_record c rfl).symm)]
    rfl

theorem mem_completions_failAll {c : Connection} {f : Failure} {k : Completion}
    (hk : k ∈ (((c.failPending f).failRetry f).failOutgoing f).completions) :
    k ∈ c.completions ∨ k.packet ∈ c.waiting ∧ k.result = .error f := by
  have pending := c.completes_failAll (c.pending.map (·.2)) f
  have retry := (c.failPending f).completes_failAll (c.failPending f).retry f
  have outgoing := ((c.failPending f).failRetry f).completes_failAll
    ((c.failPending f).failRetry f).outgoing f
  have kept : (c.failPending f).retry = c.retry := pending.fields.2.1
  have left : ((c.failPending f).failRetry f).outgoing = c.outgoing :=
    retry.fields.1.trans pending.fields.1
  rcases outgoing.mem_completions hk with hk | ⟨hp, result⟩
  · rcases retry.mem_completions hk with hk | ⟨hp, result⟩
    · refine (pending.mem_completions hk).imp_right fun ⟨hp, result⟩ => ⟨?_, result⟩
      exact List.mem_append_right _ hp
    · exact .inr ⟨List.mem_append_left _ (List.mem_append_right _ (kept ▸ hp)), result⟩
  · exact .inr ⟨List.mem_append_left _ (List.mem_append_left _ (left ▸ hp)), result⟩

theorem Move.origin {c c' : Connection} {who : Option Ticket} (m : Move c who c')
    {k : Completion} (hk : k ∈ c'.completions) : k ∈ c.completions ∨ Origin c c' k := by
  cases m with
  | quiet q => exact .inl (q.completions ▸ hk)
  | sending m => cases m <;> exact .inl hk
  | opened seeking q => exact .inl (q.completions ▸ hk)
  | skipped takes packet done q => exact .inl ((q.completions.trans takes.completions) ▸ hk)
  | @tooLarge id p c₁ _ takes packet q large =>
    have failed := c₁.completes_complete id (.error (Framing.tooLarge p.frameSize))
    rw [q.completions] at hk
    rcases failed.mem_completions hk with old | rfl
    · exact .inl (takes.completions ▸ old)
    · exact .inr (.tooLarge (takes.packets ▸ packet) large rfl
        (takes.unwritten ▸ List.mem_cons_self))
  | written driving takes packet q =>
    rw [q.completions] at hk
    exact .inl (takes.completions ▸ hk)
  | stalled takes q =>
    rw [q.completions] at hk
    exact .inl (takes.completions ▸ hk)
  | broken driving takes own q ends packet fits =>
    exact (Halts.putBack takes packet fits).origin ends q hk
  | stray driving unknown q => exact .inl (q.completions ▸ hk)
  | @answered d r id c₁ driving known q =>
    have done := completes_complete (updatePacket
      { c₁ with pending := c₁.pending.filter (·.1 != r.xid) } id (·.markReceived c₁.now)) id
      (Packet.resultOf r)
    rcases done.mem_completions hk with old | rfl
    · have old : k ∈ c₁.completions := old
      exact .inl (q.completions ▸ old)
    · obtain ⟨l₁, l₂, split, -⟩ := List.lookup_eq_some_iff.mp known
      have waits : (r.xid, id) ∈ c.pending := by simp [split]
      refine .inr (.answered waits (.trans ?_ done.suffix) rfl)
      exact q.suffix
  | lost driving own before after ends => exact (Halts.quiet before).origin ends after hk
  | @gaveUp s f c₁ _ seeking own before after first =>
    have failed := c₁.completes_failAll c₁.outgoing f
    rw [after.completions] at hk
    rcases failed.mem_completions hk with old | ⟨queued, result⟩
    · exact .inl (before.completions ▸ old)
    · have kept : k.packet ∈ c.unwritten := List.mem_append_right _ (before.outgoing ▸ queued)
      exact .inr (.gaveUp seeking first own result kept)
  | closedOut before after closing =>
    rw [after.completions] at hk
    rcases mem_completions_failAll hk with old | ⟨kept, result⟩
    · exact .inl (before.completions ▸ old)
    · exact .inr (.closed closing (before.waiting ▸ kept) result)
  | @delivered k' rest head ls =>
    left
    obtain ⟨packets, latency, hi⟩ := ({ c with dispatches := rest }.record
      (.delivered (.completion k') ls)).invoke_shape k'
    rw [hi] at hk
    have hk : k ∈ rest.filterMap Dispatch.completion? ++ k' :: c.ran := hk
    rw [completions, queued, head, List.filterMap_cons]
    exact List.perm_middle.mem_iff.mp hk

end ServiceDirectory.Connection
