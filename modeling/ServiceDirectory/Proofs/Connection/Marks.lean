import ServiceDirectory.Proofs.Connection.Sends

/-! What happened to packets and sessions, read off the history: which requests were written to the
end, and what sessions ended with. Of the moves, one only writes a request, and only those on a
session end one. -/
namespace ServiceDirectory.Connection

def marks (c : Connection) : List Event := c.history.filter Event.isMark

def Event.written? : Event → Option PacketId
  | .written p => some p
  | _ => none

def Event.lost? : Event → Option Failure
  | .lost f => some f
  | _ => none

def writes (c : Connection) : List PacketId := c.history.filterMap Event.written?

def losses (c : Connection) : List Failure := c.history.filterMap Event.lost?

theorem filterMap_marks {β : Type} (c : Connection) {g : Event → Option β}
    (hg : ∀ e, e.isMark = false → g e = none) : c.marks.filterMap g = c.history.filterMap g := by
  rw [marks, List.filterMap_filter]
  refine congrArg (List.filterMap · c.history) (funext fun e => ?_)
  cases hm : e.isMark with
  | true => rfl
  | false => exact (hg e hm).symm

theorem mem_writes {c : Connection} {p : PacketId} : p ∈ c.writes ↔ .written p ∈ c.history := by
  rw [writes, List.mem_filterMap]
  constructor
  · rintro ⟨e, he, hp⟩
    cases e <;> cases hp
    exact he
  · exact fun h => ⟨_, h, rfl⟩

theorem writes_of_marks {c c' : Connection} (h : c'.marks = c.marks) : c'.writes = c.writes := by
  have seen : ∀ e : Event, e.isMark = false → e.written? = none := by
    intro e hm
    cases e <;> first | rfl | cases hm
  rw [writes, ← filterMap_marks c' seen, h, filterMap_marks c seen]
  rfl

theorem losses_of_marks {c c' : Connection} (h : c'.marks = c.marks) : c'.losses = c.losses := by
  have seen : ∀ e : Event, e.isMark = false → e.lost? = none := by
    intro e hm
    cases e <;> first | rfl | cases hm
  rw [losses, ← filterMap_marks c' seen, h, filterMap_marks c seen]
  rfl

theorem marks_record (c : Connection) {e : Event} (h : e.isMark = true) :
    (c.record e).marks = e :: c.marks := by
  simp [marks, record, h]

theorem Quiet.marks {c c' : Connection} (q : Quiet c c') : c'.marks = c.marks := by
  obtain ⟨es, he, hes⟩ := q.history
  rw [Connection.marks, he]
  exact filter_append_of_forall hes c.history

theorem Completes.marks {kind : Completion → Prop} {c c' : Connection} (h : Completes kind c c') :
    c'.marks = c.marks := by
  obtain ⟨es, he, hes⟩ := h.history
  rw [Connection.marks, he]
  refine filter_append_of_forall (fun e hm => ?_) c.history
  obtain ⟨k, rfl⟩ := hes e hm
  rfl

theorem Takes.marks {c c' : Connection} {id : PacketId} (t : Takes c id c') :
    c'.marks = c.marks := by
  rw [Connection.marks, t.history]
  rfl

theorem marks_failPending (c : Connection) (f : Failure) : (c.failPending f).marks = c.marks :=
  (c.completes_failAll _ f).marks

theorem marks_failRetry (c : Connection) (f : Failure) : (c.failRetry f).marks = c.marks :=
  (c.completes_failAll _ f).marks

theorem marks_failOutgoing (c : Connection) (f : Failure) : (c.failOutgoing f).marks = c.marks :=
  (c.completes_failAll _ f).marks

theorem marks_invoke (c : Connection) (k : Completion) : (c.invoke k).marks = c.marks := by
  obtain ⟨_, _, hk⟩ := c.invoke_shape k
  rw [hk]
  rfl

/-- A connection on which a session is about to break off: as it was before, but for a packet that
was taken up and is put back. -/
inductive Halts (c : Connection) : Connection → Prop where
  | quiet {b} (q : Quiet c b) : Halts c b
  | putBack {id p c₁} (takes : Takes c id c₁) (packet : c₁.packets[id]? = some p)
    (fits : p.isOversized = false) : Halts c { c₁ with retry := c₁.retry ++ [id] }

theorem Halts.marks_of_lost {b c c' : Connection} (h : Halts c b) {f : Failure}
    (q : Quiet ((b.record (.lost f)).failPending f) c') : c'.marks = .lost f :: c.marks := by
  have before : b.marks = c.marks := by
    cases h with
    | quiet q => exact q.marks
    | putBack takes packet fits => exact takes.marks
  rw [q.marks, marks_failPending, marks_record b rfl, before]

theorem Move.marks_cases {c c' : Connection} {who : Option Ticket} (m : Move c who c') :
    (c'.writes = c.writes ∧ c'.losses = c.losses) ∨
    (∃ d id c₁ p, c.carrier = .driving d ∧ Takes c id c₁ ∧ c₁.packets[id]? = some p ∧
      c'.packets = c₁.packets.modify id (·.markSent c₁.now) ∧
      c'.pending = c₁.pending.filter (fun (q : Xid × PacketId) => q.1 != p.xid) ++ [(p.xid, id)] ∧
      c'.writes = id :: c.writes ∧ c'.losses = c.losses) ∨
    ∃ d f b, c.carrier = .driving d ∧ f.endsSession = true ∧ Halts c b ∧
      Quiet ((b.record (.lost f)).failPending f) c' ∧ c'.writes = c.writes ∧
      c'.losses = f :: c.losses := by
  have same {a b : Connection} (h : b.marks = a.marks) :
      b.writes = a.writes ∧ b.losses = a.losses := ⟨writes_of_marks h, losses_of_marks h⟩
  have noted {b : Connection} {e : Event} (written : e.written? = none) (lost : e.lost? = none)
      (h : b.marks = (c.record e).marks) : b.writes = c.writes ∧ b.losses = c.losses := by
    rw [writes_of_marks h, losses_of_marks h]
    exact ⟨List.filterMap_cons_none written, List.filterMap_cons_none lost⟩
  have lost {b : Connection} {f : Failure} (h : b.marks = .lost f :: c.marks) :
      b.writes = c.writes ∧ b.losses = f :: c.losses := by
    have h : b.marks = (c.record (.lost f)).marks := h.trans (marks_record c rfl).symm
    rw [writes_of_marks h, losses_of_marks h]
    exact ⟨rfl, rfl⟩
  cases m with
  | quiet q => exact .inl (same q.marks)
  | sending m => cases m <;> exact .inl ⟨rfl, rfl⟩
  | opened seeking q => exact .inl (noted rfl rfl q.marks)
  | skipped takes packet done q => exact .inl (same (q.marks.trans takes.marks))
  | tooLarge takes packet q =>
    exact .inl (same ((q.marks.trans (completes_complete _ _ _).marks).trans takes.marks))
  | @written d id p c₁ _ driving takes packet q =>
    obtain ⟨written, kept⟩ := same q.marks
    obtain ⟨before, lost⟩ := same takes.marks
    refine .inr (.inl ⟨d, id, c₁, p, driving, takes, packet, q.packets, q.pending, ?_,
      kept.trans lost⟩)
    rw [written, ← before]
    rfl
  | stalled takes q => exact .inl (same (q.marks.trans takes.marks))
  | @broken d id p c₁ f _ driving takes own q ends packet fits =>
    have halts : Halts c { c₁ with retry := c₁.retry ++ [id] } := .putBack takes packet fits
    exact .inr (.inr ⟨d, f, _, driving, ends, halts, q, lost (halts.marks_of_lost q)⟩)
  | stray driving unknown q => exact .inl (noted rfl rfl q.marks)
  | @answered d r id c₁ driving known q =>
    obtain ⟨kept, ended⟩ := noted rfl rfl q.marks
    obtain ⟨written, lost⟩ := same (completes_complete _ _ _).marks
    exact .inl ⟨written.trans kept, lost.trans ended⟩
  | @lost d f c₁ _ driving own before after ends =>
    have halts : Halts c c₁ := .quiet before
    exact .inr (.inr ⟨d, f, c₁, driving, ends, halts, after, lost (halts.marks_of_lost after)⟩)
  | gaveUp seeking own before after =>
    exact .inl (same ((after.marks.trans (marks_failOutgoing _ _)).trans before.marks))
  | closedOut before after =>
    refine .inl (same ?_)
    rw [after.marks, marks_failOutgoing, marks_failRetry, marks_failPending, before.marks]
  | delivered head ls =>
    obtain ⟨written, lost⟩ := same (marks_invoke _ _)
    exact .inl ⟨written, lost⟩

theorem Move.halts_of_lost {c c' : Connection} {who : Option Ticket} {f : Failure}
    (m : Move c who c') (lost : c'.losses = f :: c.losses) :
    ∃ d b, c.carrier = .driving d ∧ f.endsSession = true ∧ Halts c b ∧
      Quiet ((b.record (.lost f)).failPending f) c' := by
  have other : c'.losses ≠ c.losses := lost ▸ List.cons_ne_self _ _
  obtain ⟨-, same⟩ | ⟨_, _, _, _, -, -, -, -, -, -, same⟩ |
      ⟨d, g, b, driving, ends, halts, after, -, noted⟩ := m.marks_cases
  · exact absurd same other
  · exact absurd same other
  · obtain rfl : f = g := (List.cons.inj (lost.symm.trans noted)).1
    exact ⟨d, b, driving, ends, halts, after⟩

end ServiceDirectory.Connection
