import ServiceDirectory.Proofs.Connection.Sends

/-! The numbers that pair responses with packets. They come from a counter of 32 bits that starts
again after the last one; as long as fewer sends than there are numbers have got a place, no two
packets have the same. A send counts from when it has its place: it takes its number before its
packet is queued. -/
namespace ServiceDirectory.Connection

def Event.isReservation : Event → Bool
  | .reserved _ => true
  | _ => false

/-- How many sends were accepted as far as that they got a place among the outstanding packets. -/
def sends (c : Connection) : Nat := c.history.countP Event.isReservation

theorem sends_eq_countP_sendLog (c : Connection) :
    c.sends = c.sendLog.countP Event.isReservation := by
  rw [sends, sendLog, List.countP_filter]
  refine List.countP_congr fun e _ => ?_
  cases e <;> simp [Event.isReservation, Event.isSend]

theorem Aside.sends {c c' : Connection} (a : Aside c c') : c'.sends = c.sends := by
  rw [sends_eq_countP_sendLog, a.sendLog, ← sends_eq_countP_sendLog]

def Sender.xid? (s : Sender) : Option Xid :=
  match s.stage with
  | .numbered p => some p.xid
  | _ => none

def Sender.isReserved (s : Sender) : Bool :=
  match s.stage with
  | .reserved => true
  | _ => false

/-- All numbers that packets have, or packets that will be queued. -/
def taken (c : Connection) : List Xid := c.numbers ++ c.senders.filterMap Sender.xid?

/-- The first `n` numbers are taken, each once at most, and there are sends enough for them. -/
structure Numbered (c : Connection) (n : Nat) : Prop where
  next : c.nextXid.toNat = (n + 1) % UInt32.size
  enough : n + c.senders.countP Sender.isReserved ≤ c.sends
  nodup : c.taken.Nodup
  below : ∀ x ∈ c.taken, ∃ k < n, x.toNat = (k + 1) % UInt32.size

namespace Numbered

variable {c c' : Connection} {n : Nat}

theorem congr (h : Numbered c n) (hx : c'.nextXid = c.nextXid) (hs : c'.senders = c.senders)
    (hn : c'.numbers = c.numbers) (hk : c.sends ≤ c'.sends) : Numbered c' n := by
  have ht : c'.taken = c.taken := by rw [taken, hn, hs]; rfl
  exact ⟨hx ▸ h.next, hs ▸ Nat.le_trans h.enough hk, ht ▸ h.nodup, ht ▸ h.below⟩

theorem aside (h : Numbered c n) (a : Aside c c') : Numbered c' n :=
  h.congr a.nextXid a.senders a.numbers (Nat.le_of_eq a.sends.symm)

theorem record (h : Numbered c n) (e : Event) : Numbered (c.record e) n :=
  h.congr rfl rfl rfl (by simp only [sends, Connection.record, List.countP_cons]; omega)

theorem number (h : Numbered c n) {l r : List Sender} {s : Sender}
    (split : c.senders = l ++ s :: r) (stage : s.stage = .reserved)
    (few : c.sends < UInt32.size) :
    Numbered { c with
      nextXid := c.nextXid + 1
      senders := l ++ { s with stage := .numbered (s.packet c.nextXid c.now) } :: r } (n + 1) := by
  have enough := h.enough
  have nodup := h.nodup
  have below := h.below
  simp only [taken, split, List.filterMap_append, List.filterMap_cons, List.countP_append,
    List.countP_cons, Sender.xid?, Sender.isReserved, stage, if_true] at enough nodup below
  have hn : n < UInt32.size := by omega
  have fresh : ∀ x ∈ c.numbers ++ (l.filterMap Sender.xid? ++ r.filterMap Sender.xid?),
      x ≠ c.nextXid := by
    rintro x hx rfl
    obtain ⟨k, hk, he⟩ := below _ hx
    have hnext := h.next
    have hsize : UInt32.size = 4294967296 := rfl
    rw [hsize] at he hnext hn
    omega
  have moved : (c.numbers ++ (l.filterMap Sender.xid? ++ c.nextXid ::
      r.filterMap Sender.xid?)).Perm
      (c.nextXid :: (c.numbers ++ (l.filterMap Sender.xid? ++ r.filterMap Sender.xid?))) := by
    rw [← List.append_assoc, ← List.append_assoc]
    exact List.perm_middle
  constructor
  · have hone : (1 : UInt32).toNat = 1 := rfl
    simp only [UInt32.toNat_add, h.next, hone, UInt32.size]
    omega
  · simp only [List.countP_append, List.countP_cons, Sender.isReserved, Bool.false_eq_true,
      if_false]
    change _ ≤ c.sends
    omega
  · simp only [taken, numbers, List.filterMap_append, List.filterMap_cons, Sender.xid?,
      Sender.packet]
    refine moved.nodup_iff.mpr (List.nodup_cons.mpr ⟨fun hm => fresh _ hm rfl, nodup⟩)
  · intro x hx
    simp only [taken, numbers, List.filterMap_append, List.filterMap_cons, Sender.xid?,
      Sender.packet] at hx
    rcases List.mem_cons.mp (moved.mem_iff.mp hx) with rfl | hx
    · exact ⟨n, Nat.lt_succ_self n, h.next⟩
    · obtain ⟨k, hk, he⟩ := below x hx
      exact ⟨k, Nat.lt_succ_of_lt hk, he⟩

theorem accept (h : Numbered c n) {l r : List Sender} {s : Sender} {p : Packet}
    (split : c.senders = l ++ s :: r) (stage : s.stage = .numbered p) (ids : List PacketId) :
    Numbered { c with
      senders := l ++ r
      packets := c.packets ++ [p]
      outgoing := ids } n := by
  have ht : ({ c with
      senders := l ++ r
      packets := c.packets ++ [p]
      outgoing := ids } : Connection).taken.Perm c.taken := by
    refine List.perm_iff_count.mpr fun x => ?_
    simp only [taken, numbers, split, List.map_append, List.map_cons, List.map_nil,
      List.filterMap_append, List.filterMap_cons, Sender.xid?, stage, List.count_append,
      List.count_cons, List.count_nil]
    omega
  refine ⟨h.next, ?_, ht.nodup_iff.mpr h.nodup, fun x hx => h.below x (ht.mem_iff.mp hx)⟩
  have enough := h.enough
  simp only [split, List.countP_append, List.countP_cons] at enough ⊢
  change _ ≤ c.sends
  omega

theorem remove (h : Numbered c n) {l r : List Sender} {s : Sender}
    (split : c.senders = l ++ s :: r) (outstanding : Nat) :
    Numbered { c with senders := l ++ r, outstanding } n := by
  have hsub : (l ++ r).Sublist c.senders := by
    rw [split]
    exact (List.Sublist.refl l).append (List.sublist_cons_self s r)
  have ht : ({ c with senders := l ++ r, outstanding } : Connection).taken.Sublist c.taken :=
    (List.Sublist.refl _).append (hsub.filterMap _)
  exact ⟨h.next, Nat.le_trans (Nat.add_le_add_left (hsub.countP_le) n) h.enough,
    ht.nodup h.nodup, fun x hx => h.below x (ht.mem hx)⟩

theorem reserve (h : Numbered c n) {l r : List Sender} {s : Sender}
    (split : c.senders = l ++ s :: r) (stage : s.stage = .checked) (outstanding : Nat) :
    Numbered ({ c with
      outstanding
      senders := l ++ { s with stage := .reserved } :: r }.record (.reserved s.ticket)) n := by
  have ht : ({ c with
      outstanding
      senders := l ++ { s with stage := .reserved } :: r }.record (.reserved s.ticket)).taken =
      c.taken := by
    simp [taken, numbers, Connection.record, split, List.filterMap_cons, Sender.xid?, stage]
  refine ⟨h.next, ?_, ht ▸ h.nodup, ht ▸ h.below⟩
  have enough := h.enough
  simp only [sends, Connection.record, split, List.countP_append, List.countP_cons,
    Sender.isReserved, stage, Event.isReservation, if_true] at enough ⊢
  omega

theorem begin (h : Numbered c n) (s : Sender) (stage : s.stage = .checked) (nextTicket : Ticket) :
    Numbered { c with nextTicket, senders := c.senders ++ [s] } n := by
  have ht : ({ c with nextTicket, senders := c.senders ++ [s] } : Connection).taken = c.taken := by
    simp [taken, numbers, Sender.xid?, stage]
  refine ⟨h.next, ?_, ht ▸ h.nodup, ht ▸ h.below⟩
  have hc : (c.senders ++ [s]).countP Sender.isReserved = c.senders.countP Sender.isReserved := by
    simp [Sender.isReserved, stage]
  exact hc ▸ h.enough

theorem send (h : Numbered c n) (few : c.sends < UInt32.size) {t : Ticket}
    (m : SendMove c t c') : ∃ n', Numbered c' n' := by
  cases m with
  | begun op request callback => exact ⟨n, h.begin _ rfl _⟩
  | declined =>
    refine ⟨n, .record ?_ _⟩
    exact h.congr rfl rfl rfl (Nat.le_refl _)
  | admitted split stage room => exact ⟨n, h.reserve split stage _⟩
  | turnedAway split stage full => exact ⟨n, (h.remove split _).record _⟩
  | numbered split stage => exact ⟨n + 1, h.number split stage few⟩
  | accepted split stage live => exact ⟨n, (h.accept split stage _).record _⟩
  | tooLate split stage closed => exact ⟨n, (h.remove split _).record _⟩

theorem move (h : Numbered c n) (few : c.sends < UInt32.size) {who : Option Ticket}
    (m : Move c who c') : ∃ n', Numbered c' n' := by
  cases who with
  | none => exact ⟨n, h.aside m.aside⟩
  | some t =>
    cases m with
    | sending m => exact h.send few m

theorem start (settings : Settings) (roster : Roster) : Numbered (.start settings roster) 0 :=
  ⟨rfl, Nat.le_refl _, List.nodup_nil, by simp [taken, numbers, Connection.start]⟩

end Numbered

theorem Move.sends_le {c c' : Connection} {who : Option Ticket} (m : Move c who c') :
    c.sends ≤ c'.sends :=
  m.suffix.sublist.countP_le

theorem sends_le_of_run {c d : Connection} {actions : List Action}
    (run : c.run actions = some d) : c.sends ≤ d.sends :=
  run_invariant (P := fun d => c.sends ≤ d.sends)
    (fun _ le taken => Nat.le_trans le (move_of_step taken).sends_le) (Nat.le_refl _) run

/-- While there are numbers enough, no two packets have the same. -/
theorem Reachable.numbered {settings : Settings} {roster : Roster} {c : Connection}
    (h : Reachable settings roster c) (few : c.sends < UInt32.size) : ∃ n, Numbered c n := by
  induction h with
  | start => exact ⟨0, .start settings roster⟩
  | step a _ hs ih =>
    have m := move_of_step hs
    have few' := Nat.lt_of_le_of_lt m.sends_le few
    obtain ⟨n, hn⟩ := ih few'
    exact hn.move few' m

end ServiceDirectory.Connection
