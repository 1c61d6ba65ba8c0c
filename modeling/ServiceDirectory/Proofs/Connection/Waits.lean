import ServiceDirectory.Proofs.Connection.Line
import ServiceDirectory.Proofs.Connection.Pairing

/-! Which packets wait for a response, told from what happened: those whose requests were written on
the session that is open, and whose numbers no response has had since. While no two packets have the
same number, the carrier keeps exactly these. -/
namespace ServiceDirectory.Connection

theorem awaits_cons {e : Event} {history : List Event} {x : Xid} {p : PacketId} :
    Awaits (e :: history) x p ↔
      e = .written p ∨ e.endsWait x = false ∧ Awaits history x p := by
  constructor
  · rintro ⟨between, older, split, none⟩
    cases between with
    | nil => exact .inl (List.cons.inj split).1
    | cons first between =>
      obtain ⟨rfl, rfl⟩ := List.cons.inj split
      obtain ⟨here, rest⟩ := List.forall_mem_cons.mp none
      exact .inr ⟨here, between, older, rfl, rest⟩
  · rintro (rfl | ⟨here, before⟩)
    · exact ⟨[], history, rfl, by simp⟩
    · have kept : Awaits ([e] ++ history) x p := before.append (List.forall_mem_singleton.mpr here)
      exact kept

theorem awaits_marks (c : Connection) {x : Xid} {p : PacketId} :
    Awaits c.marks x p ↔ Awaits c.history x p := by
  unfold marks
  induction c.history with
  | nil => rfl
  | cons e history ih =>
    cases mark : e.isMark with
    | true => rw [List.filter_cons_of_pos mark, awaits_cons, awaits_cons, ih]
    | false =>
      have other : e ≠ .written p := by
        rintro rfl
        cases mark
      rw [List.filter_cons_of_neg (by simp [mark]), ih, awaits_cons]
      simp [other, endsWait_of_not_isMark mark x]

theorem Awaits.mem_writes {c : Connection} {x : Xid} {p : PacketId} (h : Awaits c.marks x p) :
    p ∈ c.writes := by
  obtain ⟨between, older, history, -⟩ := (c.awaits_marks).mp h
  exact Connection.mem_writes.mpr (by simp [history])

def Waits (c : Connection) : Prop :=
  ∀ p x, c.numbers[p]? = some x → Awaits c.marks x p → (x, p) ∈ c.pending

namespace Waits

variable {c c' : Connection}

theorem congr (h : Waits c) (hn : c'.numbers = c.numbers) (hm : c'.marks = c.marks)
    (hp : c'.pending = c.pending) : Waits c' := by
  rw [Waits, hn, hm, hp]
  exact h

theorem quiet (h : Waits c) (q : Quiet c c') : Waits c' := h.congr q.numbers q.marks q.pending

theorem completes {kind : Completion → Prop} (h : Waits c) (k : Completes kind c c') :
    Waits c' := by
  obtain ⟨-, -, pending, -⟩ := k.fields
  exact h.congr k.numbers k.marks pending

theorem ended {e : Event} (hm : c'.marks = e :: c.marks) (ends : ∀ x, e.endsWait x = true) :
    Waits c' := by
  intro p x number awaits
  have stops := ends x
  rw [hm, awaits_cons] at awaits
  rcases awaits with rfl | ⟨goes, -⟩
  · cases stops
  · exact absurd (stops.symm.trans goes) (by simp)

theorem takes (h : Waits c) {id : PacketId} (t : Takes c id c') : Waits c' := by
  cases t <;> exact h

theorem send (h : Waits c) (lined : Lined [] c) {t : Ticket} (m : SendMove c t c') : Waits c' := by
  have kept {e : Event} (isSend : e.isSend = true) (hm : c'.marks = e :: c.marks)
      (hn : c'.numbers = c.numbers) (hp : c'.pending = c.pending) : Waits c' := by
    intro p x number awaits
    rw [hm, awaits_cons] at awaits
    rcases awaits with written | ⟨-, awaits⟩
    · rw [written] at isSend
      cases isSend
    · exact hp ▸ h p x (hn ▸ number) awaits
  cases m with
  | begun op request callback => exact h
  | declined => exact kept rfl (marks_record _ rfl) rfl rfl
  | admitted split stage room => exact kept rfl (marks_record _ rfl) rfl rfl
  | turnedAway split stage full => exact kept rfl (marks_record _ rfl) rfl rfl
  | numbered split stage => exact h
  | @accepted l s packet r split stage live =>
    intro p x number awaits
    rw [marks_record _ rfl, awaits_cons] at awaits
    rcases awaits with written | ⟨-, awaits⟩
    · cases written
    have old := (lined.ordered.behind p awaits.mem_writes).1
    have length : c.completeds.length = c.numbers.length := by simp [completeds, numbers]
    have grown : (c.packets ++ [packet]).map (·.xid) = c.numbers ++ [packet.xid] := List.map_append
    change ((c.packets ++ [packet]).map (·.xid))[p]? = some x at number
    rw [grown, List.getElem?_append_left (length ▸ old)] at number
    exact h p x number awaits
  | tooLate split stage closed => exact kept rfl (marks_record _ rfl) rfl rfl

theorem write (h : Waits c) (distinct : c.numbers.Nodup) {id : PacketId} {packet : Packet}
    (hp : c.packets[id]? = some packet) (now : Nat) :
    Waits ({ c.updatePacket id (·.markSent now) with
      pending := c.pending.filter (fun (q : Xid × PacketId) => q.1 != packet.xid) ++
        [(packet.xid, id)] }.record (.written id)) := by
  have own : c.numbers[id]? = some packet.xid := by simp [numbers, hp]
  have same : (c.updatePacket id (·.markSent now)).numbers = c.numbers :=
    c.numbers_updatePacket id fun _ => rfl
  intro p x number awaits
  have number : c.numbers[p]? = some x := same ▸ number
  rw [marks_record _ rfl, awaits_cons] at awaits
  rcases awaits with written | ⟨-, awaits⟩
  · obtain rfl := Event.written.inj written
    obtain rfl := Option.some.inj (number.symm.trans own)
    exact List.mem_append_right _ (List.mem_singleton.mpr rfl)
  · have waiting := h p x number awaits
    -- Whoever is displaced has the number of the packet, and so is the packet itself.
    by_cases taken : x = packet.xid
    · obtain rfl : p = id := (List.getElem?_inj (List.getElem?_eq_some_iff.mp number).1 distinct).mp
        (number.trans (taken ▸ own.symm))
      exact List.mem_append_right _ (List.mem_singleton.mpr (by rw [taken]))
    · exact List.mem_append_left _ (List.mem_filter.mpr ⟨waiting, by simpa using taken⟩)

theorem move (h : Waits c) (lined : Lined [] c) (distinct : c.numbers.Nodup) {who : Option Ticket}
    (m : Move c who c') (open_ : c'.status ≠ .closed) : Waits c' := by
  cases m with
  | quiet q => exact h.quiet q
  | sending m => exact h.send lined m
  | @opened search s c' seeking q =>
    exact ended (q.marks.trans (marks_record c rfl)) fun _ => rfl
  | skipped takes packet done q => exact (h.takes takes).quiet q
  | tooLarge takes packet q =>
    exact ((h.takes takes).completes (completes_complete _ _ _)).quiet q
  | @written d id p c₁ _ driving takes packet q =>
    have distinct : c₁.numbers.Nodup := takes.numbers ▸ distinct
    exact ((h.takes takes).write distinct packet c₁.now).quiet q
  | stalled takes q =>
    have taken := h.takes takes
    refine quiet ?_ q
    exact taken
  | broken driving takes own q ends packet fits =>
    exact ended ((Halts.putBack takes packet fits).marks_of_lost q) fun _ => rfl
  | stray driving unknown q =>
    refine quiet (fun p x number awaits => ?_) q
    rw [marks_record _ rfl, awaits_cons] at awaits
    rcases awaits with written | ⟨-, awaits⟩
    · cases written
    · exact h p x number awaits
  | @answered d r id c₁ driving known q =>
    refine completes ?_ (completes_complete _ _ _)
    have same : (updatePacket { c₁ with pending := c₁.pending.filter (·.1 != r.xid) } id
        (·.markReceived c₁.now)).numbers = c₁.numbers :=
      numbers_updatePacket { c₁ with pending := c₁.pending.filter (·.1 != r.xid) } id fun _ => rfl
    intro p x number awaits
    have number : c.numbers[p]? = some x := q.numbers ▸ same ▸ number
    have awaits : Awaits c₁.marks x p := awaits
    rw [q.marks, marks_record _ rfl, awaits_cons] at awaits
    rcases awaits with written | ⟨goes, awaits⟩
    · cases written
    have other : x ≠ r.xid := by
      rintro rfl
      simp [Event.endsWait] at goes
    exact List.mem_filter.mpr ⟨q.pending ▸ h p x number awaits, by simpa using other⟩
  | lost driving own before after =>
    exact ended ((Halts.quiet before).marks_of_lost after) fun _ => rfl
  | @gaveUp s f c₁ _ seeking own before after =>
    have failed := (h.quiet before).completes (c₁.completes_failAll c₁.outgoing f)
    have failed : Waits (c₁.failOutgoing f) := failed.congr rfl rfl rfl
    exact failed.quiet after
  | closedOut before after closing => exact absurd closing.closed open_
  | @delivered k rest head ls =>
    have passed : Waits ({ c with dispatches := rest }.record (.delivered (.completion k) ls)) := by
      intro p x number awaits
      rw [marks_record _ rfl, awaits_cons] at awaits
      rcases awaits with written | ⟨-, awaits⟩
      · cases written
      · exact h p x number awaits
    have same := map_invoke ({ c with dispatches := rest }.record (.delivered (.completion k) ls)) k
      (g := (·.xid)) fun _ _ => rfl
    have marks := ({ c with dispatches := rest }.record
      (.delivered (.completion k) ls)).marks_invoke k
    obtain ⟨packets, latency, hk⟩ := ({ c with dispatches := rest }.record
      (.delivered (.completion k) ls)).invoke_shape k
    rw [hk] at same marks ⊢
    exact passed.congr same marks rfl

end Waits

theorem Reachable.waits {settings : Settings} {roster : Roster} {c : Connection}
    (h : Reachable settings roster c) (few : c.sends < UInt32.size) (open_ : c.status ≠ .closed) :
    Waits c := by
  induction h with
  | start =>
    intro p x number
    cases number
  | @step c c' a hr hs ih =>
    have m := move_of_step hs
    have few' := Nat.lt_of_le_of_lt m.sends_le few
    obtain ⟨n, hn⟩ := hr.numbered few'
    have opened : c.status ≠ .closed := fun closed =>
      open_ ((hr.step a hs).finished_iff.mpr
        ((turn_of_step hs).finished (hr.finished_iff.mp closed)))
    exact (ih few' opened).move hr.lined hn.distinct m open_

/-- The request of a packet was written on the session that is open, and its response has not been
handled. -/
def Expects (c : Connection) (p : PacketId) : Prop :=
  ∃ x, c.numbers[p]? = some x ∧ Awaits c.history x p

theorem Reachable.expects {settings : Settings} {roster : Roster} {c : Connection}
    (h : Reachable settings roster c) (few : c.sends < UInt32.size) {p : PacketId}
    (hp : p ∈ c.pending.map (·.2)) : Expects c p := by
  obtain ⟨q, hq, rfl⟩ := List.mem_map.mp hp
  exact ⟨q.1, (h.custody few).keyed q hq, h.attends q hq⟩

/-- The carrier keeps the packets that wait for a response, and no others. -/
theorem Reachable.expects_iff {settings : Settings} {roster : Roster} {c : Connection}
    (h : Reachable settings roster c) (few : c.sends < UInt32.size) (open_ : c.status ≠ .closed)
    (p : PacketId) : Expects c p ↔ p ∈ c.pending.map (·.2) := by
  refine ⟨fun ⟨x, number, awaits⟩ => ?_, h.expects few⟩
  have waiting := h.waits few open_ p x number (c.awaits_marks.mpr awaits)
  exact List.mem_map.mpr ⟨(x, p), waiting, rfl⟩

end ServiceDirectory.Connection
