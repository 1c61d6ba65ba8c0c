import ServiceDirectory.Proofs.Connection.Moves

/-! Completing packets. It changes the packets and what the dispatcher will be told, but neither the
numbers of the packets nor where any other packet is kept. No operation takes back what happened. -/
namespace ServiceDirectory.Connection

def numbers (c : Connection) : List Xid := c.packets.map (·.xid)

theorem Quiet.numbers {c c' : Connection} (q : Quiet c c') : c'.numbers = c.numbers := by
  rw [Connection.numbers, q.packets]
  rfl

/-- Some packets were completed, all in one way, and nothing else happened. -/
structure Completes (kind : Completion → Prop) (c c' : Connection) : Prop where
  shape : ∃ packets dispatches history, c' = { c with packets, dispatches, history }
  numbers : c'.numbers = c.numbers
  queued : ∃ ks, c'.queued = c.queued ++ ks ∧ ∀ k ∈ ks, kind k
  history : ∃ es, c'.history = es ++ c.history ∧ ∀ e ∈ es, ∃ k, e = .published (.completion k)

namespace Completes

variable {kind : Completion → Prop} {a b c : Connection}

theorem refl (kind : Completion → Prop) (c : Connection) : Completes kind c c :=
  ⟨⟨_, _, _, rfl⟩, rfl, ⟨[], by simp⟩, ⟨[], by simp⟩⟩

theorem trans (h : Completes kind a b) (k : Completes kind b c) : Completes kind a c := by
  obtain ⟨_, _, _, hs⟩ := h.shape
  obtain ⟨ks, hk, hks⟩ := h.queued
  obtain ⟨es, he, hes⟩ := h.history
  obtain ⟨_, _, _, hs'⟩ := k.shape
  obtain ⟨ks', hk', hks'⟩ := k.queued
  obtain ⟨es', he', hes'⟩ := k.history
  refine ⟨⟨_, _, _, hs'.trans (by rw [hs])⟩, k.numbers.trans h.numbers, ⟨ks ++ ks', ?_, ?_⟩,
    ⟨es' ++ es, ?_, ?_⟩⟩
  · rw [hk', hk, List.append_assoc]
  · exact fun q hq => (List.mem_append.mp hq).elim (hks q) (hks' q)
  · rw [he', he, List.append_assoc]
  · exact fun e hm => (List.mem_append.mp hm).elim (hes' e) (hes e)

theorem mono (h : Completes kind a b) {wider : Completion → Prop}
    (hk : ∀ k, kind k → wider k) : Completes wider a b := by
  obtain ⟨ks, hq, hks⟩ := h.queued
  exact ⟨h.shape, h.numbers, ⟨ks, hq, fun k hm => hk k (hks k hm)⟩, h.history⟩

theorem ran (h : Completes kind a b) : b.ran = a.ran := by
  obtain ⟨es, he, hes⟩ := h.history
  rw [Connection.ran, he]
  refine filterMap_append_of_forall (fun e hm => ?_) a.history
  obtain ⟨k, rfl⟩ := hes e hm
  rfl

theorem fields (h : Completes kind a b) : b.outgoing = a.outgoing ∧ b.retry = a.retry ∧
    b.pending = a.pending ∧ b.senders = a.senders ∧ b.outstanding = a.outstanding ∧
    b.nextXid = a.nextXid ∧ b.nextTicket = a.nextTicket ∧ b.settings = a.settings := by
  obtain ⟨_, _, _, hs⟩ := h.shape
  rw [hs]
  exact ⟨rfl, rfl, rfl, rfl, rfl, rfl, rfl, rfl⟩

end Completes

theorem map_set_of_getElem? {α β : Type} {f : α → β} {xs : List α} {i : Nat} {x y : α}
    (hx : xs[i]? = some x) (hy : f y = f x) : (xs.set i y).map f = xs.map f := by
  obtain ⟨hi, rfl⟩ := List.getElem?_eq_some_iff.mp hx
  have hi' : i < (xs.map f).length := by simpa using hi
  calc
    _ = (xs.map f).set i (f y) := List.map_set
    _ = (xs.map f).set i (xs.map f)[i] := by rw [hy, List.getElem_map]
    _ = xs.map f := List.set_getElem_self hi'

theorem completes_complete (c : Connection) (p : PacketId) (r : PacketResult) :
    Completes (· = ⟨p, r⟩) c (c.complete p r) := by
  unfold complete
  cases hp : c.packets[p]? with
  | none => exact .refl _ c
  | some packet =>
    cases hc : packet.complete? c.now r with
    | none =>
      simp only [Option.bind_eq_bind, Option.bind_some, hc]
      exact .refl _ c
    | some done =>
      simp only [Option.bind_eq_bind, Option.bind_some, hc]
      have hx : done.xid = packet.xid := by
        unfold Packet.complete? at hc
        by_cases hd : packet.completed
        · simp [hd] at hc
        · cases r <;> simp [hd] at hc <;> rw [← hc]
      refine ⟨⟨_, _, _, rfl⟩, map_set_of_getElem? hp hx, ⟨[⟨p, r⟩], ?_, by simp⟩, [_], rfl, by simp⟩
      simp [queued, publish, record, Dispatch.completion?]

theorem completes_failAll (c : Connection) (ps : List PacketId) (f : Failure) :
    Completes (fun k => k.packet ∈ ps ∧ k.result = .error f) c (c.failAll ps f) := by
  induction ps generalizing c with
  | nil => exact .refl _ c
  | cons p ps ih =>
    have first : Completes (fun k => k.packet ∈ p :: ps ∧ k.result = .error f) c
        (c.complete p (.error f)) := by
      refine (c.completes_complete p (.error f)).mono fun k hk => ?_
      rw [hk]
      exact ⟨List.mem_cons_self, rfl⟩
    refine first.trans ((ih (c.complete p (.error f))).mono fun k hk => ?_)
    exact ⟨List.mem_cons_of_mem p hk.1, hk.2⟩

theorem map_updatePacket {β : Type} (c : Connection) (p : PacketId) {f : Packet → Packet}
    {g : Packet → β} (hf : ∀ q, g (f q) = g q) :
    (c.updatePacket p f).packets.map g = c.packets.map g := by
  refine List.ext_getElem? fun i => ?_
  simp only [updatePacket, List.getElem?_map, List.getElem?_modify]
  cases c.packets[i]? with
  | none => rfl
  | some q => by_cases hp : p = i <;> simp [hp, hf]

theorem numbers_updatePacket (c : Connection) (p : PacketId) {f : Packet → Packet}
    (hf : ∀ q, (f q).xid = q.xid) : (c.updatePacket p f).numbers = c.numbers :=
  c.map_updatePacket p hf

theorem map_invoke {β : Type} (c : Connection) (k : Completion) {g : Packet → β}
    (hg : ∀ p now, g (p.markInvoked now) = g p) :
    (c.invoke k).packets.map g = c.packets.map g := by
  unfold invoke
  cases hp : c.packets[k.packet]? with
  | none => simp only [hp]
  | some p =>
    simp only [hp]
    refine map_set_of_getElem? hp ?_
    split
    · rfl
    · exact hg p c.now

theorem Quiet.suffix {c c' : Connection} (q : Quiet c c') : c.history <:+ c'.history := by
  obtain ⟨es, he, -⟩ := q.history
  exact ⟨es, he.symm⟩

theorem Completes.suffix {kind : Completion → Prop} {c c' : Connection}
    (k : Completes kind c c') : c.history <:+ c'.history := by
  obtain ⟨es, he, -⟩ := k.history
  exact ⟨es, he.symm⟩

theorem suffix_record (c : Connection) (e : Event) : c.history <:+ (c.record e).history :=
  List.suffix_cons e c.history

theorem suffix_failPending (c : Connection) (f : Failure) :
    c.history <:+ (c.failPending f).history :=
  (c.completes_failAll _ f).suffix

theorem suffix_failRetry (c : Connection) (f : Failure) :
    c.history <:+ (c.failRetry f).history :=
  (c.completes_failAll _ f).suffix

theorem suffix_failOutgoing (c : Connection) (f : Failure) :
    c.history <:+ (c.failOutgoing f).history :=
  (c.completes_failAll _ f).suffix

theorem Takes.history {c c' : Connection} {id : PacketId} (t : Takes c id c') :
    c'.history = c.history := by
  cases t <;> rfl

theorem Takes.packets {c c' : Connection} {id : PacketId} (t : Takes c id c') :
    c'.packets = c.packets := by
  cases t <;> rfl

theorem Takes.pending {c c' : Connection} {id : PacketId} (t : Takes c id c') :
    c'.pending = c.pending := by
  cases t <;> rfl

theorem Takes.numbers {c c' : Connection} {id : PacketId} (t : Takes c id c') :
    c'.numbers = c.numbers := by
  cases t <;> rfl

theorem SendMove.suffix {c c' : Connection} {t : Ticket} (m : SendMove c t c') :
    c.history <:+ c'.history := by
  obtain ⟨es, he, -⟩ := m.history
  exact ⟨es, he.symm⟩

theorem Move.suffix {c c' : Connection} {who : Option Ticket} (m : Move c who c') :
    c.history <:+ c'.history := by
  cases m with
  | quiet q => exact q.suffix
  | sending m => exact m.suffix
  | opened seeking q => exact (suffix_record _ _).trans q.suffix
  | skipped takes packet done q => exact takes.history ▸ q.suffix
  | tooLarge takes packet q =>
    exact takes.history ▸ (completes_complete _ _ _).suffix.trans q.suffix
  | written driving takes packet q =>
    exact takes.history ▸ (List.suffix_cons _ _).trans q.suffix
  | stalled takes q => exact takes.history ▸ q.suffix
  | broken driving takes own q =>
    rw [← takes.history]
    refine .trans (.trans ?_ (suffix_failPending _ _)) q.suffix
    exact List.suffix_cons _ _
  | stray driving unknown q => exact (suffix_record _ _).trans q.suffix
  | answered driving known q =>
    refine .trans ?_ (completes_complete _ _ _).suffix
    exact (suffix_record _ _).trans q.suffix
  | lost driving own before after =>
    exact ((before.suffix.trans (suffix_record _ _)).trans (suffix_failPending _ _)).trans
      after.suffix
  | gaveUp seeking own before after =>
    exact (before.suffix.trans (suffix_failOutgoing _ _)).trans after.suffix
  | closedOut before after =>
    exact (((before.suffix.trans (suffix_failPending _ _)).trans (suffix_failRetry _ _)).trans
      (suffix_failOutgoing _ _)).trans after.suffix
  | delivered head ls =>
    obtain ⟨_, _, hk⟩ := invoke_shape ({ c with dispatches := _ }.record (.delivered _ ls)) _
    rw [hk]
    exact List.suffix_cons _ _

end ServiceDirectory.Connection
