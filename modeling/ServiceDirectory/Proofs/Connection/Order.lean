import Mathlib.Data.List.Sort
import ServiceDirectory.Proofs.Connection.Conservation
import ServiceDirectory.Proofs.Connection.Line

/-! The order in which requests are written. Over all sessions together it is the order in which
the packets were accepted, and no request is written twice. A packet whose writing breaks off is
kept, and no other beside it; on the next session nothing happens before it is written. -/
namespace ServiceDirectory.Connection

theorem Lined.retry_eq {c : Connection} {p : PacketId} (h : Lined [] c) (hp : p ∈ c.retry) :
    c.retry = [p] := by
  have short := h.short
  rw [List.nil_append] at short
  cases kept : c.retry with
  | nil => exact absurd (kept ▸ hp) List.not_mem_nil
  | cons q rest =>
    rw [kept] at short hp
    obtain rfl : rest = [] := List.length_eq_zero_iff.mp (by simpa using short)
    rw [List.mem_singleton.mp hp]

theorem Lined.takes_eq {c c' : Connection} {p id : PacketId} (h : Lined [] c) (hp : p ∈ c.retry)
    (takes : Takes c id c') : id = p := by
  have alone := h.retry_eq hp
  cases takes with
  | again head => exact (List.cons.inj (head.symm.trans alone)).1
  | first none head => exact absurd (none.symm.trans alone) (by simp)

theorem Move.retry_kept {c c' : Connection} {who : Option Ticket} (m : Move c who c')
    (lined : Lined [] c) {p : PacketId} (hp : p ∈ c.retry) :
    p ∈ c'.retry ∨ p ∈ c'.writes ∨ c'.status = .closed := by
  cases m with
  | quiet q => exact .inl (q.retry ▸ hp)
  | sending m => cases m <;> exact .inl hp
  | opened seeking q => exact .inl (q.retry ▸ hp)
  | skipped takes packet done q =>
    obtain rfl := lined.takes_eq hp takes
    have first := (lined.takes takes).ordered.incomplete _ List.mem_cons_self
    rw [completeds, List.getElem?_map, packet] at first
    exact absurd (Option.some.inj first) (by simp [done])
  | @tooLarge id body c₁ _ takes packet q large =>
    obtain rfl := lined.takes_eq hp takes
    have fits := lined.fits _ hp
    rw [oversized, ← takes.packets, List.getElem?_map, packet] at fits
    exact absurd (Option.some.inj fits) (by simp [large])
  | @written d id body c₁ _ driving takes packet q =>
    obtain rfl := lined.takes_eq hp takes
    refine .inr (.inl ?_)
    rw [writes_of_marks q.marks]
    exact List.mem_cons_self
  | stalled takes q =>
    obtain rfl := lined.takes_eq hp takes
    exact .inl (q.retry ▸ List.mem_cons_self)
  | broken driving takes own q =>
    obtain rfl := lined.takes_eq hp takes
    have put := q.retry.trans (retry_failAll _ _ _)
    exact .inl (put ▸ List.mem_append_right _ (List.mem_singleton.mpr rfl))
  | stray driving unknown q => exact .inl (q.retry ▸ hp)
  | @answered d r id c₁ driving known q =>
    have kept : p ∈ c₁.retry := q.retry ▸ hp
    obtain ⟨-, same, -⟩ := (completes_complete ({ c₁ with
      pending := c₁.pending.filter (·.1 != r.xid) }.updatePacket id (·.markReceived c₁.now)) id
      (Packet.resultOf r)).fields
    rw [same]
    exact .inl kept
  | lost driving own before after =>
    have put := after.retry.trans ((retry_failAll _ _ _).trans before.retry)
    exact .inl (put ▸ hp)
  | gaveUp seeking own before after =>
    have put := after.retry.trans ((retry_failAll _ _ _).trans before.retry)
    exact .inl (put ▸ hp)
  | closedOut before after closing => exact .inr (.inr closing.closed)
  | delivered head ls =>
    obtain ⟨_, _, hk⟩ := invoke_shape ({ c with dispatches := _ }.record (.delivered _ ls)) _
    rw [hk]
    exact .inl hp

theorem Move.retry_first {c c' : Connection} {who : Option Ticket} (m : Move c who c')
    (lined : Lined [] c) {p : PacketId} (hp : p ∈ c.retry) :
    c'.writes = c.writes ∧ (p ∈ c'.retry ∨ c'.status = .closed) ∨ c'.writes = p :: c.writes := by
  have unwritten : p ∉ c.writes := fun hm =>
    lined.apart_of_mem_writes hm (List.mem_append_left c.outgoing hp)
  have kept (same : c'.writes = c.writes) : p ∈ c'.retry ∨ c'.status = .closed :=
    (m.retry_kept lined hp).imp_right fun h => h.resolve_left (same ▸ unwritten)
  obtain ⟨same, -⟩ | ⟨d, id, c₁, _, -, takes, -, -, -, written, -⟩ |
    ⟨d, f, b, -, -, -, -, same, -⟩ := m.marks_cases
  · exact .inl ⟨same, kept same⟩
  · obtain rfl := lined.takes_eq hp takes
    exact .inr written
  · exact .inl ⟨same, kept same⟩

theorem Reachable.writes_of_closed {settings : Settings} {roster : Roster} {c c' : Connection}
    {a : Action} (h : Reachable settings roster c) (closed : c.status = .closed)
    (taken : c.step a = some c') : c'.status = .closed ∧ c'.writes = c.writes := by
  have finished := h.finished_iff.mp closed
  refine ⟨(h.step a taken).finished_iff.mpr ((turn_of_step taken).finished finished), ?_⟩
  obtain ⟨same, -⟩ | ⟨d, _, _, _, driving, -⟩ | ⟨d, _, _, driving, -⟩ :=
    (move_of_step taken).marks_cases
  · exact same
  · cases finished.symm.trans driving
  · cases finished.symm.trans driving

/-- Whatever happens, the packet that is kept is the next whose request is written. -/
theorem Reachable.retry_first_of_run {settings : Settings} {roster : Roster} {c d : Connection}
    {actions : List Action} {p : PacketId} (h : Reachable settings roster c) (hp : p ∈ c.retry)
    (run : c.run actions = some d) :
    d.writes = c.writes ∨ ∃ later, d.writes = later ++ p :: c.writes := by
  -- Before the packet is written it is kept, except that the end of the connection takes it away;
  -- after that nothing at all is written, so the closed connection has to be carried along.
  have settled : Reachable settings roster d ∧
      (d.writes = c.writes ∧ (p ∈ d.retry ∨ d.status = .closed) ∨
        ∃ later, d.writes = later ++ p :: c.writes) := by
    refine run_invariant (P := fun d => Reachable settings roster d ∧
      (d.writes = c.writes ∧ (p ∈ d.retry ∨ d.status = .closed) ∨
        ∃ later, d.writes = later ++ p :: c.writes))
      (fun {b b'} a hb taken => ⟨hb.1.step a taken, ?_⟩) ⟨h, .inl ⟨rfl, .inl hp⟩⟩ run
    obtain ⟨reached, ⟨same, kept | closed⟩ | ⟨later, written⟩⟩ := hb
    · rcases (move_of_step taken).retry_first reached.lined kept with ⟨still, next⟩ | written
      · exact .inl ⟨still.trans same, next⟩
      · exact .inr ⟨[], written.trans (same ▸ rfl)⟩
    · obtain ⟨still, none⟩ := reached.writes_of_closed closed taken
      exact .inl ⟨none.trans same, .inr still⟩
    · obtain ⟨es, history⟩ := (move_of_step taken).suffix
      refine .inr ⟨es.filterMap Event.written? ++ later, ?_⟩
      rw [List.append_assoc, ← written, writes, ← history, List.filterMap_append]
      rfl
  exact settled.2.imp_left (·.1)

theorem retry_sessionFailed (c : Connection) (f : Failure) :
    (c.sessionFailed f).retry = c.retry := by
  have q := Quiet.overlooksSessions.sessionLost ((c.record (.lost f)).failPending f)
    (decide (f = .sessionExpired))
  exact q.retry.trans (retry_failAll _ _ _)

theorem Lined.retry_of_broken {c c' : Connection} {f : Failure} (h : Lined [] c)
    (taken : c.step (.write (.broken f)) = some c') (lost : c'.losses ≠ c.losses) :
    ∃ p rest, c.unwritten = p :: rest ∧ c'.unwritten = p :: rest ∧ c'.retry = [p] := by
  have same := (move_of_step taken).unwritten_of_lost h lost
  rw [step_write] at taken
  obtain ⟨d, p, packet, c₁, -, takes, at_, rfl⟩ := takes_of_write taken
  have hand := h.takes takes
  have new := hand.ordered.incomplete p List.mem_cons_self
  rw [completeds, List.getElem?_map, at_] at new
  have kept : (c₁.writeRequest d p packet (.broken f)).retry = [p] := by
    cases large : packet.isOversized with
    | true =>
      refine absurd ?_ lost
      simp only [writeRequest, Option.some.inj new, large]
      exact losses_of_marks ((completes_complete _ _ _).marks.trans takes.marks)
    | false =>
      simp only [writeRequest, Option.some.inj new, large]
      exact (retry_sessionFailed _ _).trans (by rw [hand.retry_nil]; rfl)
  refine ⟨p, (c₁.writeRequest d p packet (.broken f)).outgoing, ?_, ?_, kept⟩
  · rw [← same, unwritten, kept]
    rfl
  · rw [unwritten, kept]
    rfl

theorem write_again {c : Connection} {d : Drive} {id : PacketId} {retry : List PacketId}
    {packet : Packet} (driving : c.carrier = .driving d) (open_ : c.shutdown = false)
    (head : c.retry = id :: retry) (at_ : c.packets[id]? = some packet) (w : Writing) :
    c.write w = some ({ c with retry }.writeRequest d id packet w) := by
  simp [write, driving, open_, head, at_]

theorem writes_writeRequest {packet : Packet} (c : Connection) (d : Drive) (id : PacketId)
    (new : packet.completed = false) (fits : packet.isOversized = false) :
    (c.writeRequest d id packet .done).writes = id :: c.writes := by
  simp only [writeRequest, new, fits]
  rfl

/-- On a session the packet that is kept can be written, and nothing is read nor any clock looked at
before that. -/
theorem Lined.retry_next {c : Connection} {p : PacketId} {d : Drive} (h : Lined [] c)
    (hp : p ∈ c.retry) (driving : c.carrier = .driving d) (open_ : c.shutdown = false) :
    (∃ c', c.step (.write .done) = some c' ∧ c'.writes = p :: c.writes) ∧
    (∀ r, c.step (.receive r) = none) ∧ ∀ ping, c.step (.tick ping) = none := by
  have alone := h.retry_eq hp
  refine ⟨?_, fun r => ?_, fun ping => ?_⟩
  · have incomplete := h.ordered.incomplete p (List.mem_append_left c.outgoing hp)
    have fits := h.fits p hp
    rw [completeds, List.getElem?_map, Option.map_eq_some_iff] at incomplete
    obtain ⟨packet, at_, new⟩ := incomplete
    rw [oversized, List.getElem?_map, at_] at fits
    rw [step_write, write_again driving open_ alone at_]
    exact ⟨_, rfl, writes_writeRequest _ d p new (Option.some.inj fits)⟩
  · rw [step_receive]
    simp [receive, driving, alone]
  · rw [step_tick]
    simp [tick, driving, alone]

theorem Listed.nodup {c : Connection} (h : Listed c) : c.acceptances.Nodup := by
  rw [h]
  exact List.nodup_reverse.mpr List.nodup_range

theorem Lined.writes_sublist {c : Connection} (h : Lined [] c) (listed : Listed c) :
    c.writes.Sublist c.acceptances := by
  have length : c.completeds.length = c.numbers.length := by simp [completeds, numbers]
  have sorted : c.acceptances.Pairwise (· > ·) := by
    rw [listed]
    exact List.pairwise_reverse.mpr List.pairwise_lt_range
  have among : c.writes ⊆ c.acceptances := fun p hp => by
    rw [listed, List.mem_reverse, List.mem_range, ← length]
    exact (h.ordered.behind p hp).1
  have once : c.writes.Nodup := h.ordered.descending.imp Nat.ne_of_gt
  -- Both lists descend, so one is a part of the other in the same order once it is contained in it.
  have contained := List.subperm_of_subset once among
  exact List.sublist_of_subperm_of_pairwise contained h.ordered.descending sorted

/-- Over all sessions requests are written in the order in which their packets were accepted, each
once at most. A packet whose writing breaks off a session is kept, and never another beside it; it
is the next that is written, and on the next session it can be, before anything else happens. -/
theorem Reachable.written_in_order {settings : Settings} {roster : Roster} {c : Connection}
    (h : Reachable settings roster c) :
    c.writes.Sublist c.acceptances ∧ c.acceptances.Nodup ∧ c.retry.length ≤ 1 ∧
    (∀ f c', c.step (.write (.broken f)) = some c' → c'.losses ≠ c.losses →
      ∃ p rest, c.unwritten = p :: rest ∧ c'.unwritten = p :: rest ∧ c'.retry = [p]) ∧
    (∀ p ∈ c.retry, ∀ actions d, c.run actions = some d →
      d.writes = c.writes ∨ ∃ later, d.writes = later ++ p :: c.writes) ∧
    (∀ p ∈ c.retry, ∀ d, c.carrier = .driving d → c.shutdown = false →
      (∃ c', c.step (.write .done) = some c' ∧ c'.writes = p :: c.writes) ∧
      (∀ r, c.step (.receive r) = none) ∧ ∀ ping, c.step (.tick ping) = none) := by
  have lined := h.lined
  refine ⟨lined.writes_sublist h.listed, h.listed.nodup, lined.short, ?_, ?_, ?_⟩
  · exact fun f c' taken lost => lined.retry_of_broken taken lost
  · exact fun p hp actions d run => h.retry_first_of_run hp run
  · exact fun p hp d driving open_ => lined.retry_next hp driving open_

/-- Two packets, of which the first breaks off a session: on the next one it is written first. -/
theorem written_in_order_after_loss : ∃ c c' : Connection, Reachable {}
    { endpoints := [⟨"localhost", 7000⟩], nonempty := by simp } c ∧ c.losses.length = 1 ∧
    c.retry = [0] ∧ c.outgoing = [1] ∧ c.step (.write .done) = some c' ∧
    c'.writes = 0 :: c.writes := by
  have outcome : ((start {} { endpoints := [⟨"localhost", 7000⟩], nonempty := by simp }).run
      [.callConnect 1000, .enter, .seek, .seek, .seek,
        .answer (.ok (.connected { sessionId := 7, sessionTimeoutMs := 0 })),
        .beginSend .getAllServices .empty .returns, .reserve 0, .number 0, .enqueue 0,
        .beginSend .getAllServices .empty .returns, .reserve 0, .number 0, .enqueue 0,
        .write (.broken (Framing.failure "writing data" ⟨.brokenPipe, "Broken pipe"⟩)),
        .seek, .seek, .seek,
        .answer (.ok (.connected { sessionId := 7, sessionTimeoutMs := 0 }))]).map
      (fun c => (c.losses.length, c.retry, c.outgoing, c.shutdown, c.stance)) =
      some (1, [0], [1], false,
        .driving ⟨⟨"localhost", 7000⟩, 7, Time.ofMillis 40000, false⟩) := by decide +kernel
  obtain ⟨c, run, facts⟩ := Option.map_eq_some_iff.mp outcome
  simp only [Prod.mk.injEq] at facts
  obtain ⟨lost, kept, queued, open_, driving⟩ := facts
  obtain ⟨d, driving, -⟩ := stance_eq_driving.mp driving
  have reached := Reachable.start.run run
  obtain ⟨-, -, -, -, -, next⟩ := reached.written_in_order
  obtain ⟨⟨c', taken, written⟩, -⟩ := next 0 (by simp [kept]) d driving open_
  exact ⟨c, c', reached, lost, kept, queued, taken, written⟩

end ServiceDirectory.Connection
