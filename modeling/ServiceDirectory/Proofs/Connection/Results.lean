import ServiceDirectory.Proofs.Connection.Origins

/-! The results of packets are kept. Whatever a connection does later, a packet that is completed
keeps what it knows of its end, and what its callback is told is not taken back. No packet is
completed without its callback being told. -/
namespace ServiceDirectory

def Packet.outcome (p : Packet) : Bool × Option ByteArray × Option ErrorCode :=
  (p.completed, p.response, p.errorCode)

theorem Packet.completed_of_outcome {p q : Packet} (h : q.outcome = p.outcome) :
    q.completed = p.completed :=
  congrArg Prod.fst h

namespace Connection

/-- Whatever was completed before is completed, with the same result, and no packet was completed
since without its callback being told. -/
structure Keeps (c c' : Connection) : Prop where
  completions : c.completions ⊆ c'.completions
  outcomes : ∀ {p : PacketId} {packet : Packet}, c.packets[p]? = some packet →
    packet.completed = true → ∃ later, c'.packets[p]? = some later ∧ later.outcome = packet.outcome
  told : ∀ {p : PacketId} {packet : Packet}, c'.packets[p]? = some packet →
    packet.completed = true → p ∈ c'.settled ∨
      ∃ before, c.packets[p]? = some before ∧ before.completed = true

namespace Keeps

variable {a b c c' : Connection}

theorem settled (h : Keeps c c') : c.settled ⊆ c'.settled := List.map_subset _ h.completions

theorem of_outcomes (completions : c.completions ⊆ c'.completions)
    (packets : c'.packets.map Packet.outcome = c.packets.map Packet.outcome) : Keeps c c' := by
  have same (p : PacketId) :
      c'.packets[p]?.map Packet.outcome = c.packets[p]?.map Packet.outcome := by
    rw [← List.getElem?_map, packets, List.getElem?_map]
  refine ⟨completions, fun {p packet} here _ => ?_, fun {p packet} here done => .inr ?_⟩
  · exact Option.map_eq_some_iff.mp ((same p).trans (congrArg (Option.map _) here))
  · obtain ⟨before, there, outcome⟩ :=
      Option.map_eq_some_iff.mp ((same p).symm.trans (congrArg (Option.map _) here))
    exact ⟨before, there, (Packet.completed_of_outcome outcome).trans done⟩

theorem of_eq (completions : c'.completions = c.completions) (packets : c'.packets = c.packets) :
    Keeps c c' :=
  .of_outcomes (completions ▸ List.Subset.refl _) (congrArg _ packets)

theorem refl (c : Connection) : Keeps c c := of_eq rfl rfl

theorem trans (h : Keeps a b) (k : Keeps b c) : Keeps a c := by
  refine ⟨List.Subset.trans h.completions k.completions, fun here done => ?_, fun here done => ?_⟩
  · obtain ⟨later, there, same⟩ := h.outcomes here done
    obtain ⟨last, where_, still⟩ :=
      k.outcomes there ((Packet.completed_of_outcome same).trans done)
    exact ⟨last, where_, still.trans same⟩
  · rcases k.told here done with told | ⟨later, there, done⟩
    · exact .inl told
    · exact (h.told there done).imp_left fun told => k.settled told

end Keeps

theorem Quiet.keeps {c c' : Connection} (q : Quiet c c') : Keeps c c' :=
  .of_eq q.completions q.packets

theorem Takes.keeps {c c' : Connection} {id : PacketId} (t : Takes c id c') : Keeps c c' :=
  .of_eq t.completions t.packets

theorem keeps_record (c : Connection) {e : Event} (h : e.completion? = none) :
    Keeps c (c.record e) := by
  refine .of_eq ?_ rfl
  simp [Connection.completions, queued, ran, record, h]

theorem keeps_fields (c : Connection) {outgoing retry : List PacketId}
    {pending : List (Xid × PacketId)} : Keeps c { c with outgoing, retry, pending } :=
  .of_eq rfl rfl

theorem keeps_updatePacket (c : Connection) (p : PacketId) {f : Packet → Packet}
    (hf : ∀ q, (f q).outcome = q.outcome) : Keeps c (c.updatePacket p f) :=
  .of_outcomes (List.Subset.refl _) (c.map_updatePacket p hf)

theorem keeps_complete (c : Connection) (p : PacketId) (r : PacketResult) :
    Keeps c (c.complete p r) := by
  cases here : c.packets[p]? with
  | none =>
    have same : c.complete p r = c := by simp [complete, here]
    rw [same]
    exact .refl c
  | some packet =>
    cases completed : packet.completed with
    | true =>
      rw [complete_of_completed here completed]
      exact .refl c
    | false =>
      obtain ⟨done, -, -, same⟩ := complete_eq here completed r
      have settled := settled_complete c (c.packets.set p done) ⟨p, r⟩
      rw [same]
      refine ⟨fun k hk => ?_, fun {q old} there done => ?_, fun {q now} there done => ?_⟩
      · rcases List.mem_append.mp hk with hk | hk
        · refine List.mem_append_left _ ?_
          simp only [queued, publish, record, List.filterMap_append]
          exact List.mem_append_left _ hk
        · exact List.mem_append_right _ hk
      · -- The packet that is completed now is not one that was completed before.
        have other : p ≠ q := by
          rintro rfl
          obtain rfl := Option.some.inj (here.symm.trans there)
          cases completed.symm.trans done
        exact ⟨old, (List.getElem?_set_ne other).trans there, rfl⟩
      · by_cases other : p = q
        · exact .inl (settled.mem_iff.mpr (other ▸ List.mem_cons_self))
        · exact .inr ⟨now, (List.getElem?_set_ne other).symm.trans there, done⟩

theorem keeps_failAll (c : Connection) (ps : List PacketId) (f : Failure) :
    Keeps c (c.failAll ps f) := by
  induction ps generalizing c with
  | nil => exact .refl c
  | cons p ps ih => exact (c.keeps_complete p _).trans (ih _)

theorem keeps_failPending (c : Connection) (f : Failure) : Keeps c (c.failPending f) :=
  (c.keeps_failAll _ f).trans (keeps_fields _)

theorem keeps_failRetry (c : Connection) (f : Failure) : Keeps c (c.failRetry f) :=
  (c.keeps_failAll _ f).trans (keeps_fields _)

theorem keeps_failOutgoing (c : Connection) (f : Failure) : Keeps c (c.failOutgoing f) :=
  (c.keeps_failAll _ f).trans (keeps_fields _)

theorem SendMove.keeps {c c' : Connection} {t : Ticket} (m : SendMove c t c')
    (fresh : ∀ s ∈ c.senders, ∀ p, s.stage = .numbered p → p.completed = false) : Keeps c c' := by
  cases m with
  | @accepted l s packet r split stage live =>
    refine ⟨List.Subset.refl _, fun here _ => ⟨_, ?_, rfl⟩, fun {p later} here done => .inr ?_⟩
    · exact List.getElem?_append_left (List.getElem?_eq_some_iff.mp here).1 ▸ here
    · -- The packet that comes in now is not completed yet.
      rcases Nat.lt_or_ge p c.packets.length with old | new
      · exact ⟨later, (List.getElem?_append_left old).symm.trans here, done⟩
      · have here : (c.packets ++ [packet])[p]? = some later := here
        rw [List.getElem?_append_right new] at here
        obtain rfl : later = packet := by simpa using List.mem_of_getElem? here
        cases (fresh s (by simp [split]) later stage).symm.trans done
  | _ => exact .of_eq rfl rfl

theorem keeps_deliver {c : Connection} {k : Completion} {rest : List Dispatch}
    (head : c.dispatches = .completion k :: rest) (ls : List ListenerId) :
    Keeps c (({ c with dispatches := rest }.record (.delivered (.completion k) ls)).invoke k) := by
  generalize passed : { c with dispatches := rest }.record (.delivered (.completion k) ls) = b
  have outcomes : (b.invoke k).packets.map Packet.outcome = c.packets.map Packet.outcome := by
    rw [b.map_invoke k fun _ _ => rfl, ← passed]
    rfl
  refine .of_outcomes (fun l hl => ?_) outcomes
  obtain ⟨packets, latency, shape⟩ := b.invoke_shape k
  rw [shape, ← passed]
  change l ∈ rest.filterMap Dispatch.completion? ++ k :: c.ran
  rw [completions, queued, head, List.filterMap_cons] at hl
  exact List.perm_middle.mem_iff.mpr hl

/-- No move takes back what was completed. -/
theorem Move.keeps {c c' : Connection} {who : Option Ticket} (m : Move c who c')
    (fresh : ∀ s ∈ c.senders, ∀ p, s.stage = .numbered p → p.completed = false) : Keeps c c' := by
  cases m with
  | quiet q => exact q.keeps
  | sending m => exact m.keeps fresh
  | opened seeking q => exact (c.keeps_record rfl).trans q.keeps
  | skipped takes packet done q => exact takes.keeps.trans q.keeps
  | tooLarge takes packet q => exact (takes.keeps.trans (keeps_complete _ _ _)).trans q.keeps
  | @written d id p c₁ _ driving takes packet q =>
    have marked := c₁.keeps_updatePacket id (f := (·.markSent c₁.now)) fun _ => rfl
    refine .trans ((takes.keeps.trans marked).trans ?_) q.keeps
    exact (keeps_fields _).trans (keeps_record _ rfl)
  | stalled takes q => exact (takes.keeps.trans (keeps_fields _)).trans q.keeps
  | broken driving takes own q =>
    refine .trans ((takes.keeps.trans ?_).trans (keeps_failPending _ _)) q.keeps
    exact (keeps_fields _).trans (keeps_record _ rfl)
  | stray driving unknown q => exact (c.keeps_record rfl).trans q.keeps
  | @answered d r id c₁ driving known q =>
    have marked := keeps_updatePacket { c₁ with pending := c₁.pending.filter (·.1 != r.xid) } id
      (f := (·.markReceived c₁.now)) fun _ => rfl
    have arrived := (c.keeps_record (e := .received (.response r)) rfl).trans q.keeps
    refine .trans (.trans ?_ marked) (keeps_complete _ _ _)
    exact arrived.trans (keeps_fields _)
  | lost driving own before after =>
    exact (before.keeps.trans (keeps_record _ rfl)).trans
      ((keeps_failPending _ _).trans after.keeps)
  | gaveUp seeking own before after =>
    exact before.keeps.trans ((keeps_failOutgoing _ _).trans after.keeps)
  | closedOut before after =>
    exact (before.keeps.trans (keeps_failPending _ _)).trans
      (((keeps_failRetry _ _).trans (keeps_failOutgoing _ _)).trans after.keeps)
  | delivered head ls => exact keeps_deliver head ls

theorem Reachable.keeps_of_step {settings : Settings} {roster : Roster} {c c' : Connection}
    {a : Action} (h : Reachable settings roster c) (taken : c.step a = some c') : Keeps c c' :=
  (move_of_step taken).keeps h.lined.fresh

theorem Reachable.keeps_of_run {settings : Settings} {roster : Roster} {c d : Connection}
    {actions : List Action} (h : Reachable settings roster c) (run : c.run actions = some d) :
    Keeps c d := by
  have kept : Reachable settings roster d ∧ Keeps c d :=
    run_invariant (P := fun d => Reachable settings roster d ∧ Keeps c d)
      (fun a ⟨reached, kept⟩ taken =>
        ⟨reached.step a taken, kept.trans (reached.keeps_of_step taken)⟩) ⟨h, .refl c⟩ run
  exact kept.2

theorem Reachable.mem_settled_of_completed {settings : Settings} {roster : Roster} {c : Connection}
    (h : Reachable settings roster c) {p : PacketId} {packet : Packet}
    (here : c.packets[p]? = some packet) (done : packet.completed = true) : p ∈ c.settled := by
  induction h generalizing packet with
  | start => cases here
  | step a reached taken ih =>
    have kept := reached.keeps_of_step taken
    rcases kept.told here done with told | ⟨before, there, done⟩
    · exact told
    · exact kept.settled (ih there done)

end Connection
end ServiceDirectory
