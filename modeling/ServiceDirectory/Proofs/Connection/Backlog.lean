import ServiceDirectory.Proofs.Connection.Conservation

/-! The places among the outstanding packets. A send takes one before it makes its packet; the place
is free again when the callback of the packet runs, or when the packet is not queued after all. So
the counter is the number of packets whose callbacks have not run and of sends that have a place. -/
namespace ServiceDirectory.Connection

def Sender.holdsPlace (s : Sender) : Bool :=
  match s.stage with
  | .checked => false
  | _ => true

theorem Sender.holdsPlace_eq_true {s : Sender} (h : s.stage ≠ .checked) : s.holdsPlace = true := by
  unfold holdsPlace
  split
  · rename_i hs
    exact absurd hs h
  · rfl

theorem Sender.holdsPlace_of_checked {s : Sender} (h : s.stage = .checked) :
    s.holdsPlace = false := by
  rw [holdsPlace, h]

theorem countP_middle {α : Type} (p : α → Bool) (l r : List α) (a : α) :
    (l ++ a :: r).countP p = (l ++ r).countP p + if p a then 1 else 0 := by
  rw [List.countP_append, List.countP_append, List.countP_cons, Nat.add_assoc]

def holders (c : Connection) : Nat := c.senders.countP Sender.holdsPlace

theorem SendMove.places {c c' : Connection} {t : Ticket} (m : SendMove c t c') :
    (c'.numbers.length + c'.holders = c.numbers.length + c.holders ∧
      c'.outstanding = c.outstanding ∧ c'.sends = c.sends) ∨
    (c.outstanding < c.settings.maxOutstanding ∧
      c'.numbers.length + c'.holders = c.numbers.length + c.holders + 1 ∧
      c'.outstanding = c.outstanding + 1 ∧ c'.sends = c.sends + 1) ∨
    (c.carrier = .finished ∧ c'.numbers.length = c.numbers.length ∧ c'.holders + 1 = c.holders ∧
      c'.outstanding = c.outstanding - 1 ∧ c'.sends = c.sends) := by
  cases m with
  | begun op request callback =>
    refine .inl ⟨?_, rfl, rfl⟩
    simp [holders, numbers, Sender.holdsPlace]
  | declined => exact .inl ⟨rfl, rfl, rfl⟩
  | @admitted l s r split stage room =>
    refine .inr (.inl ⟨room, ?_, rfl, List.countP_cons_of_pos rfl⟩)
    change c.numbers.length + (l ++ { s with stage := .reserved } :: r).countP Sender.holdsPlace = _
    rw [holders, split, countP_middle, countP_middle, Sender.holdsPlace_of_checked stage,
      Sender.holdsPlace_eq_true (by simp)]
    rfl
  | @turnedAway l s r split stage full =>
    refine .inl ⟨?_, rfl, rfl⟩
    change c.numbers.length + (l ++ r).countP Sender.holdsPlace = _
    rw [holders, split, countP_middle, Sender.holdsPlace_of_checked stage]
    rfl
  | @numbered l s r split stage =>
    refine .inl ⟨?_, rfl, rfl⟩
    change c.numbers.length + (l ++ { s with stage := .numbered _ } :: r).countP
      Sender.holdsPlace = _
    rw [holders, split, countP_middle, countP_middle,
      Sender.holdsPlace_eq_true (s := s) (by simp [stage]), Sender.holdsPlace_eq_true (by simp)]
  | @accepted l s p r split stage live =>
    refine .inl ⟨?_, rfl, rfl⟩
    have more : ((c.packets ++ [p]).map (·.xid)).length = c.numbers.length + 1 := by
      simp [numbers]
    change ((c.packets ++ [p]).map (·.xid)).length + (l ++ r).countP Sender.holdsPlace = _
    rw [more, holders, split, countP_middle, Sender.holdsPlace_eq_true (by simp [stage]),
      if_pos rfl]
    omega
  | @tooLate l s p r split stage closed =>
    refine .inr (.inr ⟨closed, rfl, ?_, rfl, rfl⟩)
    change (l ++ r).countP Sender.holdsPlace + 1 = _
    rw [holders, split, countP_middle, Sender.holdsPlace_eq_true (by simp [stage]), if_pos rfl]

theorem SendMove.ran {c c' : Connection} {t : Ticket} (m : SendMove c t c') : c'.ran = c.ran := by
  cases m <;> rfl

/-- The packets that were accepted and the sends still on their way have got a place. Until the
carrier has finished there are no others. -/
theorem Reachable.places_le {settings : Settings} {roster : Roster} {c : Connection}
    (h : Reachable settings roster c) :
    c.numbers.length + c.holders ≤ c.sends ∧
      (c.carrier ≠ .finished → c.sends = c.numbers.length + c.holders) := by
  induction h with
  | start => exact ⟨Nat.le_refl _, fun _ => rfl⟩
  | @step c c' a hr hs ih =>
    obtain ⟨enough, all⟩ := ih
    have before (live : c'.carrier ≠ .finished) : c.sends = c.numbers.length + c.holders :=
      all fun finished => live ((turn_of_step hs).finished finished)
    have m := move_of_step hs
    revert m
    cases c.actor a with
    | none =>
      intro m
      have holders : c'.holders = c.holders := by
        rw [Connection.holders, m.aside.senders]
        rfl
      rw [m.aside.sends, m.aside.numbers, holders]
      exact ⟨enough, before⟩
    | some t =>
      intro m
      cases m with
      | sending m =>
        rcases m.places with ⟨places, -, sends⟩ | ⟨-, places, -, sends⟩ |
          ⟨finished, numbers, holders, -, sends⟩
        · rw [places, sends]
          exact ⟨enough, before⟩
        · rw [places, sends]
          exact ⟨Nat.succ_le_succ enough, fun live => congrArg (· + 1) (before live)⟩
        · refine ⟨by omega, fun live => ?_⟩
          exact absurd ((turn_of_step hs).finished finished) live

/-- The accepted packets whose callbacks have not run. -/
def untaken (c : Connection) : List PacketId :=
  (List.range c.packets.length).filter fun p => !(c.held .invoked).contains p

theorem Custody.length_ran_le {c : Connection} (h : Custody [] c) :
    c.ran.length ≤ c.numbers.length := by
  have total := h.accounted.once.length_eq
  simp only [settled, List.length_append, List.length_map, List.length_range] at total
  rw [numbers, List.length_map]
  omega

theorem Custody.length_untaken {c : Connection} (h : Custody [] c) :
    c.untaken.length + c.ran.length = c.numbers.length := by
  have once := h.accounted.once
  rw [List.nil_append] at once
  have nodup : (c.waiting ++ c.settled).Nodup := once.nodup_iff.mpr List.nodup_range
  have taken : ∀ p ∈ c.held .invoked, ¬(!(c.held .invoked).contains p) = true := by
    intro p hp
    simp [hp]
  rw [settled, List.map_append, ← List.append_assoc] at once nodup
  have left : ∀ p ∈ c.waiting ++ c.queued.map (·.packet),
      (!(c.held .invoked).contains p) = true := by
    intro p hp
    have absent : p ∉ c.held .invoked := fun hm => (List.nodup_append.mp nodup).2.2 p hp p hm rfl
    simpa using absent
  have count : c.untaken.length = (c.waiting ++ c.queued.map (·.packet)).length := by
    rw [untaken, ← List.countP_eq_length_filter, ← once.countP_eq, List.countP_append,
      List.countP_eq_length.mpr left]
    exact Nat.add_eq_left.mpr (List.countP_eq_zero.mpr taken)
  have total := once.length_eq
  rw [List.length_append, List.length_map, List.length_range, ← count] at total
  rw [numbers, List.length_map]
  exact total

structure Balanced (c : Connection) : Prop where
  balance : c.outstanding + c.ran.length = c.numbers.length + c.holders
  bounded : c.outstanding ≤ c.settings.maxOutstanding

namespace Balanced

variable {c c' : Connection}

theorem aside (h : Balanced c) (a : Aside c c') (after : Custody [] c') : Balanced c' := by
  obtain ⟨n, ran, outstanding⟩ := a.freed
  have balance := h.balance
  have bounded := h.bounded
  have enough := after.length_ran_le
  have holders : c'.holders = c.holders := by rw [Connection.holders, a.senders]; rfl
  rw [a.numbers, ran] at enough
  constructor
  · rw [outstanding, ran, a.numbers, holders]
    omega
  · rw [outstanding, a.settings]
    omega

theorem pos_of_holdsPlace (h : Balanced c) (custody : Custody [] c) {s : Sender}
    (hs : s ∈ c.senders) (hp : s.holdsPlace = true) : 0 < c.outstanding := by
  have balance := h.balance
  have enough := custody.length_ran_le
  have one : 0 < c.holders := List.countP_pos_iff.mpr ⟨s, hs, hp⟩
  omega

theorem pos_of_queued (h : Balanced c) (custody : Custody [] c) {k : Completion}
    (hk : k ∈ c.queued) : 0 < c.outstanding := by
  have balance := h.balance
  have total := custody.accounted.once.length_eq
  have one : 0 < c.queued.length := List.length_pos_of_mem hk
  simp only [settled, List.length_append, List.length_map, List.length_range] at total
  rw [numbers, List.length_map] at balance
  omega

theorem send (h : Balanced c) (custody : Custody [] c) {t : Ticket} (m : SendMove c t c') :
    Balanced c' := by
  have balance := h.balance
  have bounded := h.bounded
  have enough := custody.length_ran_le
  have ran := congrArg List.length m.ran
  have settings := m.settings
  rcases m.places with ⟨places, outstanding, -⟩ | ⟨room, places, outstanding, -⟩ |
    ⟨-, numbers, holders, outstanding, -⟩
  · exact ⟨by omega, by rw [outstanding, settings]; exact bounded⟩
  · exact ⟨by omega, by rw [outstanding, settings]; exact room⟩
  · rw [← numbers] at enough balance
    refine ⟨by omega, ?_⟩
    rw [outstanding, settings]
    exact Nat.le_trans (Nat.sub_le _ _) bounded

theorem move (h : Balanced c) (before : Custody [] c) (after : Custody [] c')
    {who : Option Ticket} (m : Move c who c') : Balanced c' := by
  cases who with
  | none => exact h.aside m.aside after
  | some t =>
    cases m with
    | sending m => exact h.send before m

end Balanced

theorem Reachable.balanced {settings : Settings} {roster : Roster} {c : Connection}
    (h : Reachable settings roster c) (few : c.sends < UInt32.size) : Balanced c := by
  induction h with
  | start => exact ⟨rfl, Nat.zero_le _⟩
  | @step c c' a hr hs ih =>
    have m := move_of_step hs
    have few' := Nat.lt_of_le_of_lt m.sends_le few
    have after : Reachable settings roster c' := .step a hr hs
    exact (ih few').move (hr.custody few') (after.custody few) m

theorem Reachable.outstanding_eq {settings : Settings} {roster : Roster} {c : Connection}
    (h : Reachable settings roster c) (few : c.sends < UInt32.size) :
    c.outstanding = c.untaken.length + c.holders := by
  have balance := (h.balanced few).balance
  have untaken := (h.custody few).length_untaken
  omega

theorem Reachable.untaken_of_closed {settings : Settings} {roster : Roster} {c : Connection}
    (h : Reachable settings roster c) (few : c.sends < UInt32.size) (closed : c.status = .closed)
    (delivered : c.dispatches = []) : c.untaken = [] := by
  obtain ⟨outgoing, retry, pending⟩ := h.drained closed
  have none : c.queued = [] := by simp [queued, delivered]
  have total := (h.custody few).accounted.once.length_eq
  have untaken := (h.custody few).length_untaken
  simp only [waiting, settled, outgoing, retry, pending, none, List.map_nil, List.append_nil,
    List.nil_append, List.length_map, List.length_range] at total
  rw [numbers, List.length_map] at untaken
  exact List.length_eq_zero_iff.mp (by omega)

theorem Reachable.settings_eq {settings : Settings} {roster : Roster} {c : Connection}
    (h : Reachable settings roster c) : c.settings = settings := by
  induction h with
  | start => rfl
  | @step c c' a _ hs ih => exact (move_of_step hs).settings.trans ih

/-- What the steps of a send add to the counter over a run, less what they take from it. -/
def net (t : Ticket) : Connection → List Action → Int
  | _, [] => 0
  | c, a :: actions =>
    match c.step a with
    | none => 0
    | some c' =>
      (if c.actor a = some t then (c'.outstanding : Int) - c.outstanding else 0) + net t c' actions

/-- How often a send stands for a place, or for a packet that was queued. -/
def share (c : Connection) (t : Ticket) : Nat :=
  c.senders.countP (fun s => s.holdsPlace && s.ticket == t) + c.acceptedTickets.count t

theorem Aside.share {c c' : Connection} (a : Aside c c') (t : Ticket) : c'.share t = c.share t := by
  rw [Connection.share, acceptedTickets, a.senders, a.sendLog]
  rfl

/-- A step of a send changes the counter by what it changes the share of the send. -/
theorem SendMove.share {c c' : Connection} {u : Ticket} (m : SendMove c u c')
    (balanced : Balanced c) (custody : Custody [] c) (t : Ticket) :
    (if u = t then (c'.outstanding : Int) - c.outstanding else 0) =
      (c'.share t : Int) - c.share t := by
  have still (ho : c'.outstanding = c.outstanding) (hs : c'.share t = c.share t) :
      (if u = t then (c'.outstanding : Int) - c.outstanding else 0) =
        (c'.share t : Int) - c.share t := by
    rw [ho, hs, Int.sub_self, Int.sub_self, ite_self]
  cases m with
  | begun op request callback =>
    refine still rfl ?_
    simp [Connection.share, Sender.holdsPlace, acceptedTickets, sendLog]
  | declined => exact still rfl rfl
  | @admitted l s r split stage room =>
    have before : c.share t = (l ++ r).countP (fun s => s.holdsPlace && s.ticket == t) +
        c.acceptedTickets.count t := by
      simp [Connection.share, split, Sender.holdsPlace_of_checked stage]
    change (if s.ticket = t then ((c.outstanding + 1 : Nat) : Int) - c.outstanding else 0) =
      (((l ++ { s with stage := .reserved } :: r).countP
        (fun s => s.holdsPlace && s.ticket == t) + c.acceptedTickets.count t : Nat) : Int) - _
    rw [before, countP_middle, Sender.holdsPlace_eq_true (by simp)]
    by_cases ht : s.ticket = t
    · simp only [ht, if_true, Bool.true_and, beq_self_eq_true]
      omega
    · simp only [ht, if_false, Bool.true_and, beq_iff_eq]
      omega
  | @turnedAway l s r split stage full =>
    refine still rfl ?_
    change (l ++ r).countP (fun s => s.holdsPlace && s.ticket == t) +
      c.acceptedTickets.count t = _
    rw [Connection.share, split, countP_middle, Sender.holdsPlace_of_checked stage]
    rfl
  | @numbered l s r split stage =>
    refine still rfl ?_
    have held := Sender.holdsPlace_eq_true (s := s) (by simp [stage])
    change (l ++ { s with stage := .numbered _ } :: r).countP
      (fun s => s.holdsPlace && s.ticket == t) + c.acceptedTickets.count t = _
    rw [Connection.share, split, countP_middle, countP_middle, held,
      Sender.holdsPlace_eq_true (by simp)]
  | @accepted l s p r split stage live =>
    refine still rfl ?_
    have held := Sender.holdsPlace_eq_true (s := s) (by simp [stage])
    change (l ++ r).countP (fun s => s.holdsPlace && s.ticket == t) +
      (s.ticket :: c.acceptedTickets).count t = _
    rw [Connection.share, split, countP_middle, held, List.count_cons]
    simp only [Bool.true_and]
    omega
  | @tooLate l s p r split stage closed =>
    have held := Sender.holdsPlace_eq_true (s := s) (by simp [stage])
    have pos := balanced.pos_of_holdsPlace custody (by simp [split]) held
    have before : c.share t = (l ++ r).countP (fun s => s.holdsPlace && s.ticket == t) +
        (if s.ticket = t then 1 else 0) + c.acceptedTickets.count t := by
      rw [Connection.share, split, countP_middle, held]
      simp only [Bool.true_and, beq_iff_eq]
    change (if s.ticket = t then ((c.outstanding - 1 : Nat) : Int) - c.outstanding else 0) =
      (((l ++ r).countP (fun s => s.holdsPlace && s.ticket == t) +
        c.acceptedTickets.count t : Nat) : Int) - _
    rw [before]
    split <;> omega

theorem Ticketed.share_of_refused {c : Connection} (h : Ticketed c) {t : Ticket} {f : Failure}
    (refused : Event.refused t f ∈ c.history) : c.share t = 0 := by
  have decided : t ∈ c.refusedTickets :=
    List.mem_filterMap.mpr ⟨_, List.mem_filter.mpr ⟨refused, rfl⟩, rfl⟩
  obtain ⟨-, nodup, apart⟩ := List.nodup_append.mp h.once
  have notSending : ∀ s ∈ c.senders, s.ticket ≠ t := fun s hs =>
    apart _ (List.mem_map_of_mem hs) _ (List.mem_append_right _ decided)
  have notAccepted : t ∉ c.acceptedTickets := fun hm =>
    (List.nodup_append.mp nodup).2.2 t hm t decided rfl
  rw [share, List.count_eq_zero.mpr notAccepted, Nat.add_zero]
  refine List.countP_eq_zero.mpr fun s hs => ?_
  simp [notSending s hs]

theorem net_eq {settings : Settings} {roster : Roster} {c c' : Connection} {actions : List Action}
    (h : Reachable settings roster c) (run : c.run actions = some c')
    (few : c'.sends < UInt32.size) (t : Ticket) :
    net t c actions = (c'.share t : Int) - c.share t := by
  induction actions generalizing c with
  | nil =>
    obtain rfl := run_nil_eq_some_iff.mp run
    exact (Int.sub_self _).symm
  | cons a actions ih =>
    have few' := Nat.lt_of_le_of_lt (sends_le_of_run run) few
    obtain ⟨d, hd, rest⟩ := run_cons_eq_some_iff.mp run
    have one : (if c.actor a = some t then (d.outstanding : Int) - c.outstanding else 0) =
        (d.share t : Int) - c.share t := by
      have m := move_of_step hd
      revert m
      cases c.actor a with
      | none =>
        intro m
        rw [m.aside.share t, Int.sub_self]
        rfl
      | some u =>
        intro m
        cases m with
        | sending m =>
          simp only [Option.some.injEq]
          exact m.share (h.balanced few') (h.custody few') t
    rw [net, hd]
    simp only [one, ih (.step a h hd) rest]
    omega

theorem step_beginSend {c : Connection} (held : c.holding = .held) (alive : c.status ≠ .closed)
    (op : OpCode) (request : ByteArray) (callback : Callback) :
    ∃ c', c.step (.beginSend op request callback) = some c' ∧ c'.history = c.history ∧
      c'.senders = c.senders ++ [⟨c.nextTicket, op, request, callback, .checked⟩] := by
  have go : c.status.isAlive = true := by simp [ConnectionStatus.isAlive, alive]
  have taken :
      c.step (.beginSend op request callback) = some (c.beginSend op request callback) := by
    simp [step, Action.isCall, held]
  rw [taken, beginSend]
  simp only [go, if_true]
  exact ⟨_, rfl, rfl, rfl⟩

theorem step_reserve {c : Connection} {i : Nat} {s : Sender} (hs : c.senders[i]? = some s)
    (stage : s.stage = .checked) :
    ∃ c', c.step (.reserve i) = some c' ∧
      (c.settings.maxOutstanding ≤ c.outstanding → c'.outstanding = c.outstanding ∧
        c'.history = .refused s.ticket (.backlogFull c.settings.maxOutstanding) :: c.history) ∧
      (c.outstanding < c.settings.maxOutstanding → c'.outstanding = c.outstanding + 1 ∧
        c'.history = .reserved s.ticket :: c.history) := by
  obtain ⟨ticket, op, request, callback, _⟩ := s
  obtain rfl : _ = SendStage.checked := stage
  have taken : c.step (.reserve i) = c.reserve i := by simp [step, Action.isCall]
  rw [taken, reserve, hs]
  by_cases room : c.outstanding < c.settings.maxOutstanding
  · simp only [if_pos room]
    exact ⟨_, rfl, fun full => absurd room (Nat.not_lt.mpr full), fun _ => ⟨rfl, rfl⟩⟩
  · simp only [if_neg room]
    exact ⟨_, rfl, fun _ => ⟨rfl, rfl⟩, fun h => absurd h room⟩

theorem step_enqueue {c : Connection} (closed : c.carrier = .finished) {i : Nat} {s : Sender}
    (hs : c.senders[i]? = some s) {p : Packet} (stage : s.stage = .numbered p) :
    ∃ c', c.step (.enqueue i) = some c' ∧ c'.outstanding = c.outstanding - 1 ∧
      c'.history = .refused s.ticket .connectionClosed :: c.history := by
  obtain ⟨ticket, op, request, callback, _⟩ := s
  obtain rfl : _ = SendStage.numbered p := stage
  have taken : c.step (.enqueue i) = c.enqueue i := by simp [step, Action.isCall]
  rw [taken, enqueue, hs]
  simp only [closed]
  exact ⟨_, rfl, rfl, rfl⟩

theorem Move.full_of_refused {c c' : Connection} {who : Option Ticket} (m : Move c who c')
    {t : Ticket} {limit : Nat}
    (refused : c'.history = .refused t (.backlogFull limit) :: c.history) :
    c.settings.maxOutstanding ≤ c.outstanding := by
  have longer : c'.history ≠ c.history := by
    rw [refused]
    exact List.cons_ne_self _ _
  cases who with
  | none =>
    have log := m.aside.sendLog
    rw [sendLog, refused] at log
    exact absurd log (List.cons_ne_self _ _)
  | some u =>
    cases m with
    | sending m =>
      cases m with
      | begun op request callback => exact absurd rfl longer
      | declined => cases refused
      | admitted split stage room => cases refused
      | turnedAway split stage full => exact full
      | numbered split stage => exact absurd rfl longer
      | accepted split stage live => cases refused
      | tooLate split stage closed => cases refused

/-- The counter of outstanding packets over a run in which the numbers do not run out. It counts the
packets whose callbacks have not run and the sends that have a place. It never exceeds its limit,
and is never zero when a place is given back. A send on an open connection is told that the backlog
is full if the counter is at its limit, and only then. What a refused send adds to the counter it
takes back. On a closed connection with nothing left for the dispatcher only sends on their way are
counted. -/
theorem backlog_of_run {settings : Settings} {roster : Roster} {actions : List Action}
    {c : Connection} (run : (start settings roster).run actions = some c)
    (few : c.sends < UInt32.size) :
    c.outstanding = c.untaken.length + c.holders ∧
    c.outstanding ≤ settings.maxOutstanding ∧
    (∀ k rest, c.dispatches = .completion k :: rest → 0 < c.outstanding) ∧
    (∀ i s p, c.senders[i]? = some s → s.stage = .numbered p → c.status = .closed →
      ∃ c', c.step (.enqueue i) = some c' ∧ c'.outstanding + 1 = c.outstanding ∧
        c'.history = .refused s.ticket .connectionClosed :: c.history) ∧
    (∀ op request callback, c.holding = .held → c.status ≠ .closed →
      ∃ c', c.step (.beginSend op request callback) = some c' ∧ c'.history = c.history ∧
        c'.senders = c.senders ++ [⟨c.nextTicket, op, request, callback, .checked⟩]) ∧
    (∀ i s, c.senders[i]? = some s → s.stage = .checked → ∃ c', c.step (.reserve i) = some c' ∧
      (c.outstanding = settings.maxOutstanding → c'.outstanding = c.outstanding ∧
        c'.history = .refused s.ticket (.backlogFull settings.maxOutstanding) :: c.history) ∧
      (c.outstanding ≠ settings.maxOutstanding → c'.outstanding = c.outstanding + 1 ∧
        c'.history = .reserved s.ticket :: c.history)) ∧
    (∀ a c' t limit, c.step a = some c' →
      c'.history = .refused t (.backlogFull limit) :: c.history →
      c.outstanding = settings.maxOutstanding) ∧
    (∀ t f, Event.refused t f ∈ c.history → net t (start settings roster) actions = 0) ∧
    (c.status = .closed → c.dispatches = [] →
      c.outstanding = c.holders ∧ (c.senders = [] → c.outstanding = 0)) := by
  have h : Reachable settings roster c := Reachable.start.run run
  have custody := h.custody few
  have balanced := h.balanced few
  have bounded := balanced.bounded
  rw [h.settings_eq] at bounded
  refine ⟨h.outstanding_eq few, bounded, ?_, ?_, ?_, ?_, ?_, ?_, ?_⟩
  · intro k rest head
    refine balanced.pos_of_queued custody (k := k) ?_
    simp [queued, head, Dispatch.completion?]
  · intro i s p hs stage closed
    have pos := balanced.pos_of_holdsPlace custody (List.mem_of_getElem? hs)
      (Sender.holdsPlace_eq_true (by simp [stage]))
    obtain ⟨c', step, outstanding, history⟩ :=
      step_enqueue (h.finished_iff.mp closed) hs stage
    exact ⟨c', step, by omega, history⟩
  · intro op request callback held alive
    exact step_beginSend held alive op request callback
  · intro i s hs stage
    obtain ⟨c', step, full, room⟩ := step_reserve hs stage
    rw [h.settings_eq] at full room
    exact ⟨c', step, fun limit => full (Nat.le_of_eq limit.symm),
      fun less => room (Nat.lt_of_le_of_ne bounded less)⟩
  · intro a c' t limit step refused
    have full := (move_of_step step).full_of_refused refused
    rw [h.settings_eq] at full
    exact Nat.le_antisymm bounded full
  · intro t f refused
    rw [net_eq .start run few t, h.ticketed.share_of_refused refused]
    rfl
  · intro closed delivered
    have only : c.outstanding = c.holders := by
      rw [h.outstanding_eq few, h.untaken_of_closed few closed delivered, List.length_nil,
        Nat.zero_add]
    refine ⟨only, fun idle => ?_⟩
    rw [only, holders, idle]
    rfl

/-- With one place, the second of two sends is turned away while the first waits. -/
theorem backlog_of_run_one_place : ∃ (actions : List Action) (c : Connection),
    (start { maxOutstanding := 1 }
      { endpoints := [⟨"localhost", 7000⟩], nonempty := by simp }).run actions = some c ∧
    c.sends < UInt32.size ∧ c.outstanding = c.untaken.length + c.holders ∧
    Event.refused 1 (.backlogFull 1) ∈ c.history ∧
    net 1 (start { maxOutstanding := 1 }
      { endpoints := [⟨"localhost", 7000⟩], nonempty := by simp }) actions = 0 := by
  obtain ⟨c, run, few, last⟩ : ∃ c : Connection, (start { maxOutstanding := 1 }
      { endpoints := [⟨"localhost", 7000⟩], nonempty := by simp }).run
        [.beginSend .getAllServices .empty .returns, .reserve 0, .number 0,
          .beginSend .getAllServices .empty .returns, .enqueue 0, .reserve 0] = some c ∧
      c.sends < UInt32.size ∧ c.history[0]? = some (.refused 1 (.backlogFull 1)) :=
    ⟨_, rfl, by decide, rfl⟩
  have refused := List.mem_of_getElem? last
  obtain ⟨counted, -, -, -, -, -, -, returned, -⟩ := backlog_of_run run few
  exact ⟨_, c, run, few, counted, refused, returned 1 _ refused⟩

end ServiceDirectory.Connection
