import ServiceDirectory.Proofs.Connection.Completions

/-! What all steps but those of sends leave alone: the sends on their way, what was recorded of
sends, and the numbers of packets. -/
namespace ServiceDirectory.Connection

def sendLog (c : Connection) : List Event := c.history.filter Event.isSend

theorem isSend_of_not_isMark {e : Event} (h : e.isMark = false) : e.isSend = false := by
  cases e <;> simp_all [Event.isMark, Event.isSend]

/-- No send took a step. Places among the outstanding packets were only given back, each for a
callback that ran. -/
structure Aside (c c' : Connection) : Prop where
  settings : c'.settings = c.settings
  senders : c'.senders = c.senders
  nextXid : c'.nextXid = c.nextXid
  nextTicket : c.nextTicket ≤ c'.nextTicket
  numbers : c'.numbers = c.numbers
  sendLog : c'.sendLog = c.sendLog
  freed : ∃ n, c'.ran.length = c.ran.length + n ∧ c'.outstanding = c.outstanding - n

namespace Aside

variable {a b c c' : Connection}

theorem trans (h : Aside a b) (k : Aside b c) : Aside a c := by
  obtain ⟨n, hr, ho⟩ := h.freed
  obtain ⟨m, kr, ko⟩ := k.freed
  refine ⟨k.settings.trans h.settings, k.senders.trans h.senders, k.nextXid.trans h.nextXid,
    Nat.le_trans h.nextTicket k.nextTicket, k.numbers.trans h.numbers,
    k.sendLog.trans h.sendLog, n + m, ?_, ?_⟩
  · rw [kr, hr, Nat.add_assoc]
  · rw [ko, ho, Nat.sub_sub]

theorem of_eq (hs : c'.settings = c.settings) (hsend : c'.senders = c.senders)
    (hx : c'.nextXid = c.nextXid) (ht : c.nextTicket ≤ c'.nextTicket)
    (hn : c'.numbers = c.numbers) (hl : c'.sendLog = c.sendLog) (hr : c'.ran = c.ran)
    (ho : c'.outstanding = c.outstanding) : Aside c c' :=
  ⟨hs, hsend, hx, ht, hn, hl, 0, by rw [hr, Nat.add_zero], ho⟩

end Aside

theorem aside_record (c : Connection) {e : Event} (hs : e.isSend = false)
    (hc : e.completion? = none) : Aside c (c.record e) := by
  refine .of_eq rfl rfl rfl (Nat.le_refl _) rfl ?_ ?_ rfl
  · simp [sendLog, record, hs]
  · simp [ran, record, hc]

theorem Quiet.aside {c c' : Connection} (q : Quiet c c') : Aside c c' := by
  obtain ⟨es, he, hes⟩ := q.history
  refine .of_eq q.settings q.senders q.nextXid q.nextTicket q.numbers ?_ q.ran q.outstanding
  rw [sendLog, he]
  exact filter_append_of_forall (fun e hm => isSend_of_not_isMark (hes e hm)) c.history

theorem Completes.aside {kind : Completion → Prop} {c c' : Connection}
    (h : Completes kind c c') : Aside c c' := by
  obtain ⟨-, -, -, senders, outstanding, nextXid, nextTicket, settings⟩ := h.fields
  obtain ⟨es, he, hes⟩ := h.history
  refine .of_eq settings senders nextXid (Nat.le_of_eq nextTicket.symm) h.numbers ?_ h.ran
    outstanding
  rw [sendLog, he]
  refine filter_append_of_forall (fun e hm => ?_) c.history
  obtain ⟨k, rfl⟩ := hes e hm
  rfl

theorem aside_failAll (c : Connection) (ps : List PacketId) (f : Failure) :
    Aside c (c.failAll ps f) := (c.completes_failAll ps f).aside

theorem aside_fields (c : Connection) {outgoing retry : List PacketId}
    {pending : List (Xid × PacketId)} : Aside c { c with outgoing, retry, pending } :=
  .of_eq rfl rfl rfl (Nat.le_refl _) rfl rfl rfl rfl

theorem aside_updatePacket (c : Connection) (p : PacketId) {f : Packet → Packet}
    (hf : ∀ q, (f q).xid = q.xid) : Aside c (c.updatePacket p f) :=
  .of_eq rfl rfl rfl (Nat.le_refl _) (c.numbers_updatePacket p hf) rfl rfl rfl

theorem Takes.aside {c c' : Connection} {id : PacketId} (t : Takes c id c') : Aside c c' := by
  cases t <;> exact c.aside_fields

theorem aside_failPending (c : Connection) (f : Failure) : Aside c (c.failPending f) :=
  (c.aside_failAll _ f).trans (aside_fields _)

theorem aside_failRetry (c : Connection) (f : Failure) : Aside c (c.failRetry f) :=
  (c.aside_failAll _ f).trans (aside_fields _)

theorem aside_failOutgoing (c : Connection) (f : Failure) : Aside c (c.failOutgoing f) :=
  (c.aside_failAll _ f).trans (aside_fields _)

theorem aside_deliver (c : Connection) (k : Completion) (rest : List Dispatch)
    (ls : List ListenerId) :
    Aside c (({ c with dispatches := rest }.record (.delivered (.completion k) ls)).invoke k) := by
  generalize hb : { c with dispatches := rest }.record (.delivered (.completion k) ls) = b
  have hn : (b.invoke k).numbers = b.numbers := b.map_invoke k fun _ _ => rfl
  have numbers : b.numbers = c.numbers := by rw [← hb]; rfl
  obtain ⟨packets, latency, hk⟩ := b.invoke_shape k
  rw [numbers, hk] at hn
  rw [hk, ← hb] at *
  refine ⟨rfl, rfl, rfl, Nat.le_refl _, hn, ?_, 1, ?_, rfl⟩
  · simp [Connection.sendLog, record, Event.isSend]
  · simp [ran, record, Event.completion?, Dispatch.completion?]

theorem Move.aside {c c' : Connection} (m : Move c none c') : Aside c c' := by
  cases m with
  | quiet q => exact q.aside
  | opened seeking q => exact (aside_record c rfl rfl).trans q.aside
  | skipped takes packet done q => exact takes.aside.trans q.aside
  | tooLarge takes packet q =>
    exact (takes.aside.trans (completes_complete _ _ _).aside).trans q.aside
  | @written d id p c₁ _ driving takes packet q =>
    have marked := c₁.aside_updatePacket id (f := (·.markSent c₁.now)) fun _ => rfl
    refine .trans (.trans ?_ (aside_record _ rfl rfl)) q.aside
    exact (takes.aside.trans marked).trans (aside_fields _)
  | stalled takes q => exact (takes.aside.trans (aside_fields _)).trans q.aside
  | broken driving takes own q =>
    refine .trans (.trans (.trans ?_ (aside_record _ rfl rfl)) (aside_failPending _ _)) q.aside
    exact takes.aside.trans (aside_fields _)
  | stray driving unknown q => exact (aside_record c rfl rfl).trans q.aside
  | @answered d r id c₁ driving known q =>
    have arrived := (aside_record c (e := .received (.response r)) rfl rfl).trans q.aside
    have marked := aside_updatePacket { c₁ with pending := c₁.pending.filter (·.1 != r.xid) } id
      (f := (·.markReceived c₁.now)) fun _ => rfl
    refine .trans (.trans ?_ marked) (completes_complete _ _ _).aside
    exact arrived.trans (aside_fields _)
  | lost driving own before after =>
    exact ((before.aside.trans (aside_record _ rfl rfl)).trans (aside_failPending _ _)).trans
      after.aside
  | gaveUp seeking own before after =>
    exact (before.aside.trans (aside_failOutgoing _ _)).trans after.aside
  | closedOut before after =>
    exact (((before.aside.trans (aside_failPending _ _)).trans (aside_failRetry _ _)).trans
      (aside_failOutgoing _ _)).trans after.aside
  | delivered head ls => exact c.aside_deliver _ _ ls

theorem Move.numbers {c c' : Connection} {who : Option Ticket} (m : Move c who c') :
    c.numbers <+: c'.numbers := by
  cases who with
  | none => exact m.aside.numbers ▸ List.prefix_refl _
  | some t =>
    cases m with
    | sending m =>
      cases m with
      | accepted split stage live =>
        rw [Connection.numbers, Connection.numbers, record, List.map_append]
        exact List.prefix_append _ _
      | _ => exact List.prefix_refl _

theorem SendMove.forall_numbered {P : Packet → Prop} {c c' : Connection} {t : Ticket}
    (m : SendMove c t c') (made : ∀ (s : Sender) xid now, P (s.packet xid now))
    (h : ∀ s ∈ c.senders, ∀ p, s.stage = .numbered p → P p) :
    ∀ s ∈ c'.senders, ∀ p, s.stage = .numbered p → P p := by
  have around {l r : List Sender} {s : Sender} (split : c.senders = l ++ s :: r) :
      (∀ x ∈ l, ∀ p, x.stage = .numbered p → P p) ∧
        ∀ x ∈ r, ∀ p, x.stage = .numbered p → P p := by
    obtain ⟨left, rest⟩ := List.forall_mem_append.mp (split ▸ h)
    exact ⟨left, (List.forall_mem_cons.mp rest).2⟩
  have replaced {l r : List Sender} {s s' : Sender} (split : c.senders = l ++ s :: r)
      (hs : ∀ p, s'.stage = .numbered p → P p) :
      ∀ x ∈ l ++ s' :: r, ∀ p, x.stage = .numbered p → P p :=
    List.forall_mem_append.mpr
      ⟨(around split).1, List.forall_mem_cons.mpr ⟨hs, (around split).2⟩⟩
  cases m with
  | begun op request callback =>
    exact List.forall_mem_append.mpr ⟨h, List.forall_mem_singleton.mpr (by simp)⟩
  | declined => exact h
  | admitted split stage room => exact replaced split (by simp)
  | turnedAway split stage full => exact List.forall_mem_append.mpr (around split)
  | @numbered l s r split stage =>
    refine replaced split fun p hp => ?_
    obtain rfl := SendStage.numbered.inj hp
    exact made s _ _
  | accepted split stage live => exact List.forall_mem_append.mpr (around split)
  | tooLate split stage closed => exact List.forall_mem_append.mpr (around split)

theorem SendMove.fresh {c c' : Connection} {t : Ticket} (m : SendMove c t c')
    (h : ∀ s ∈ c.senders, ∀ p, s.stage = .numbered p → p.completed = false) :
    ∀ s ∈ c'.senders, ∀ p, s.stage = .numbered p → p.completed = false :=
  m.forall_numbered (fun _ _ _ => rfl) h

theorem SendMove.settings {c c' : Connection} {t : Ticket} (m : SendMove c t c') :
    c'.settings = c.settings := by
  cases m <;> rfl

theorem Move.settings {c c' : Connection} {who : Option Ticket} (m : Move c who c') :
    c'.settings = c.settings := by
  cases who with
  | none => exact m.aside.settings
  | some t =>
    cases m with
    | sending m => exact m.settings

def Event.acceptedTicket? : Event → Option Ticket
  | .accepted ticket _ => some ticket
  | _ => none

def Event.refusedTicket? : Event → Option Ticket
  | .refused ticket _ => some ticket
  | _ => none

def acceptedTickets (c : Connection) : List Ticket := c.sendLog.filterMap Event.acceptedTicket?

def refusedTickets (c : Connection) : List Ticket := c.sendLog.filterMap Event.refusedTicket?

def tickets (c : Connection) : List Ticket :=
  c.senders.map (·.ticket) ++ (c.acceptedTickets ++ c.refusedTickets)

/-- Every send is on its way, accepted or refused, and only one of the three. -/
structure Ticketed (c : Connection) : Prop where
  once : c.tickets.Nodup
  below : ∀ t ∈ c.tickets, t < c.nextTicket

namespace Ticketed

variable {c c' : Connection}

theorem congr (h : Ticketed c) (ht : c'.tickets.Perm c.tickets)
    (hn : c.nextTicket ≤ c'.nextTicket) : Ticketed c' :=
  ⟨ht.nodup_iff.mpr h.once, fun t hm => Nat.lt_of_lt_of_le (h.below t (ht.mem_iff.mp hm)) hn⟩

theorem begin (h : Ticketed c) (ht : c'.tickets.Perm (c.nextTicket :: c.tickets))
    (hn : c'.nextTicket = c.nextTicket + 1) : Ticketed c' := by
  have fresh : c.nextTicket ∉ c.tickets := fun hm => Nat.lt_irrefl _ (h.below _ hm)
  refine ⟨ht.nodup_iff.mpr (List.nodup_cons.mpr ⟨fresh, h.once⟩), fun t hm => ?_⟩
  rw [hn]
  rcases List.mem_cons.mp (ht.mem_iff.mp hm) with rfl | hm
  · exact Nat.lt_succ_self _
  · exact Nat.lt_succ_of_lt (h.below t hm)

theorem aside (h : Ticketed c) (a : Aside c c') : Ticketed c' := by
  refine h.congr ?_ a.nextTicket
  rw [tickets, acceptedTickets, refusedTickets, a.senders, a.sendLog]
  exact .refl _

theorem send (h : Ticketed c) {t : Ticket} (m : SendMove c t c') : Ticketed c' := by
  cases m with
  | begun op request callback =>
    refine h.begin ?_ rfl
    change ((c.senders ++ [_]).map Sender.ticket ++
      (c.acceptedTickets ++ c.refusedTickets)).Perm _
    rw [List.map_append, List.append_assoc]
    exact List.perm_middle
  | declined =>
    refine h.begin (List.perm_iff_count.mpr fun t => ?_) rfl
    change (c.senders.map (·.ticket) ++
      (c.acceptedTickets ++ c.nextTicket :: c.refusedTickets)).count t = _
    simp only [tickets, List.count_append, List.count_cons]
    omega
  | @admitted l s r split stage room =>
    refine h.congr ?_ (Nat.le_refl _)
    change ((l ++ { s with stage := .reserved } :: r).map (·.ticket) ++
      (c.acceptedTickets ++ c.refusedTickets)).Perm _
    rw [tickets, split, List.map_append, List.map_append]
    exact .refl _
  | @turnedAway l s r split stage full =>
    refine h.congr (List.perm_iff_count.mpr fun t => ?_) (Nat.le_refl _)
    change ((l ++ r).map (·.ticket) ++
      (c.acceptedTickets ++ s.ticket :: c.refusedTickets)).count t = _
    simp only [tickets, split, List.map_append, List.map_cons, List.count_append, List.count_cons]
    omega
  | @numbered l s r split stage =>
    refine h.congr ?_ (Nat.le_refl _)
    change ((l ++ { s with stage := _ } :: r).map (·.ticket) ++
      (c.acceptedTickets ++ c.refusedTickets)).Perm _
    rw [tickets, split, List.map_append, List.map_append]
    exact .refl _
  | @accepted l s p r split stage live =>
    refine h.congr (List.perm_iff_count.mpr fun t => ?_) (Nat.le_refl _)
    change ((l ++ r).map (·.ticket) ++
      (s.ticket :: c.acceptedTickets ++ c.refusedTickets)).count t = _
    simp only [tickets, split, List.map_append, List.map_cons, List.count_append, List.count_cons]
    omega
  | @tooLate l s p r split stage closed =>
    refine h.congr (List.perm_iff_count.mpr fun t => ?_) (Nat.le_refl _)
    change ((l ++ r).map (·.ticket) ++
      (c.acceptedTickets ++ s.ticket :: c.refusedTickets)).count t = _
    simp only [tickets, split, List.map_append, List.map_cons, List.count_append, List.count_cons]
    omega

theorem move (h : Ticketed c) {who : Option Ticket} (m : Move c who c') : Ticketed c' := by
  cases who with
  | none => exact h.aside m.aside
  | some t =>
    cases m with
    | sending m => exact h.send m

end Ticketed

theorem Reachable.ticketed {settings : Settings} {roster : Roster} {c : Connection}
    (h : Reachable settings roster c) : Ticketed c := by
  induction h with
  | start =>
    have none : (Connection.start settings roster).tickets = [] := rfl
    exact ⟨none ▸ List.nodup_nil, by simp [none]⟩
  | step a _ hs ih => exact ih.move (move_of_step hs)

end ServiceDirectory.Connection
