import ServiceDirectory.Proofs.Connection.Calls
import ServiceDirectory.Proofs.Connection.Causes
import ServiceDirectory.Proofs.Connection.Results
import ServiceDirectory.Proofs.Connection.Wrapping

/-! What is left of a connection after a call to close. From the return of the call on it is closed
for good: it has no session, looks for none and takes no packet. All packets that were accepted are
completed, with the failure that tells of the end unless they were completed before it was noticed.
That holds as long as no packet has lost its place to another with the same number. -/
namespace ServiceDirectory.Connection

@[simp] theorem endpoint_transition (c : Connection) (next : ConnectionStatus) :
    (c.transition next).endpoint = c.endpoint := by
  unfold transition
  split <;> rfl

@[simp] theorem sessionTimeout_transition (c : Connection) (next : ConnectionStatus) :
    (c.transition next).sessionTimeout = c.sessionTimeout := by
  unfold transition
  split <;> rfl

theorem vacant_closeOut (c : Connection) :
    c.closeOut.endpoint = none ∧ c.closeOut.sessionTimeout = none := by
  have ended : c.finishClosed.endpoint = none ∧ c.finishClosed.sessionTimeout = none := by
    simp [finishClosed]
  have q := c.steady_closeOut
  exact ⟨q.endpoint.trans ended.1, q.sessionTimeout.trans ended.2⟩

def Vacant (c : Connection) : Prop :=
  c.carrier = .finished → c.endpoint = none ∧ c.sessionTimeout = none

theorem Turn.vacant {c c' : Connection} (t : Turn c c') (h : Vacant c) : Vacant c' := by
  intro finished
  have stance := stance_eq_finished.mpr finished
  cases t with
  | steady q =>
    have before := h (stance_eq_finished.mp (q.stance.symm.trans stance))
    exact ⟨q.endpoint.trans before.1, q.sessionTimeout.trans before.2⟩
  | @closedOut c₁ _ before after drained =>
    have closed := c₁.vacant_closeOut
    exact ⟨after.endpoint.trans closed.1, after.sessionTimeout.trans closed.2⟩
  | sought idle alive timeout => cases finished
  | attempted seeking q =>
    have same := stance_eq_finished.mp (q.stance.symm.trans stance)
    cases same.symm.trans seeking
  | rejected seeking before =>
    rw [carrier_transition] at finished
    have same := stance_eq_finished.mp (before.stance.symm.trans (stance_eq_finished.mpr finished))
    cases same.symm.trans seeking
  | opened seeking uses after => cases after.stance.symm.trans stance
  | lost driving before => cases finished
  | expired driving before => cases finished
  | gaveUp seeking first before => cases (stance_connectFailed _ _).symm.trans stance
  | withdrew seeking first before after => cases after.stance.symm.trans stance

theorem Reachable.vacant {settings : Settings} {roster : Roster} {c : Connection}
    (h : Reachable settings roster c) : Vacant c := by
  induction h with
  | start => exact fun finished => by cases finished
  | step a _ taken ih => exact (turn_of_step taken).vacant ih

/-- A connection that is closed: there is no session and no search for one, and no packet waits. -/
structure Over (c : Connection) : Prop where
  carrier : c.carrier = .finished
  status : c.status = .closed
  sessionId : c.sessionId = none
  endpoint : c.endpoint = none
  sessionTimeout : c.sessionTimeout = none
  outgoing : c.outgoing = []
  retry : c.retry = []
  pending : c.pending = []

theorem Reachable.over {settings : Settings} {roster : Roster} {c : Connection}
    (h : Reachable settings roster c) (finished : c.carrier = .finished) : Over c := by
  have closed := h.finished_iff.mpr finished
  have suits := h.suits
  rw [stance_eq_finished.mpr finished] at suits
  obtain ⟨endpoint, timeout⟩ := h.vacant finished
  obtain ⟨outgoing, retry, pending⟩ := h.drained closed
  exact ⟨finished, closed, suits.2, endpoint, timeout, outgoing, retry, pending⟩

def Call.afterEnd : Call → Except Failure Unit
  | .connect _ => .error .connectionClosed
  | .close => .ok ()

/-- What is done to a connection has no effect any more. A send is refused; the shutdown that a call
to close asks for was asked for before; a call that has its turn comes back, and that is all. -/
structure Inert (c : Connection) : Prop where
  send : ∀ op request callback, c.beginSend op request callback =
    { c with nextTicket := c.nextTicket + 1 }.record (.refused c.nextTicket .connectionClosed)
  close : c.callClose = c.addCall .close
  turn : ∀ {t call calls}, c.calls = (t, call) :: calls →
    c.enter = some ({ c with calls }.record (.returned t call.afterEnd))

theorem Over.closeOut {c : Connection} (h : Over c) : c.closeOut = c := by
  obtain ⟨carrier, status, sessionId, endpoint, timeout, outgoing, retry, pending⟩ := h
  have ended : c.finishClosed = c := by
    have none : c.endSession = c := by simp only [endSession, sessionId]
    have same : { c with endpoint := .none, sessionTimeout := .none } = c := by
      rw [← endpoint, ← timeout]
    rw [finishClosed, none, same, transition, if_pos (.inr status)]
  have none : c.failPending .connectionClosed = c := by
    simp only [failPending, pending, List.map_nil, failAll, List.foldl_nil]
    rw [← pending]
  have none' : c.failRetry .connectionClosed = c := by
    simp only [failRetry, retry, failAll, List.foldl_nil]
    rw [← retry]
  have none'' : c.failOutgoing .connectionClosed = c := by
    simp only [failOutgoing, outgoing, failAll, List.foldl_nil]
    rw [← outgoing]
  simp only [Connection.closeOut, ended, none, none', none'']
  rw [← carrier]

theorem Over.inert {c : Connection} (h : Over c) (asked : c.shutdown = true) : Inert c := by
  refine ⟨fun op request callback => ?_, ?_, fun {t call calls} row => ?_⟩
  · simp [beginSend, h.status, ConnectionStatus.isAlive, record]
  · rw [callClose, ← asked]
  · cases call with
    | connect timeout => simp [enter, row, h.status, returnFirst, Call.afterEnd]
    | close => simp [enter, row, h.carrier, h.closeOut, returnFirst, Call.afterEnd]

theorem Move.acceptances_of_finished {c c' : Connection} {who : Option Ticket} (m : Move c who c')
    (finished : c.carrier = .finished) : c'.acceptances = c.acceptances := by
  cases who with
  | none =>
    rw [acceptances_eq_filterMap_sendLog, m.aside.sendLog, ← acceptances_eq_filterMap_sendLog]
  | some t =>
    cases m with
    | sending m =>
      cases m with
      | accepted split stage live => exact absurd finished live
      | _ => rfl

theorem finished_of_run {c d : Connection} {actions : List Action}
    (finished : c.carrier = .finished) (run : c.run actions = some d) :
    d.carrier = .finished ∧ d.acceptances = c.acceptances := by
  refine run_invariant (P := fun d => d.carrier = .finished ∧ d.acceptances = c.acceptances)
    (fun a h taken => ?_) ⟨finished, rfl⟩ run
  exact ⟨(turn_of_step taken).finished h.1,
    ((move_of_step taken).acceptances_of_finished h.1).trans h.2⟩

/-- While the numbers do not run out, no packet is left without a result after the end. -/
theorem Reachable.completed_of_over {settings : Settings} {roster : Roster} {c : Connection}
    (h : Reachable settings roster c) (closed : Over c) (few : c.sends < UInt32.size) {p : PacketId}
    (hp : p ∈ c.acceptances) :
    p ∈ c.settled ∧ ∃ packet, c.packets[p]? = some packet ∧ packet.completed = true := by
  have custody := h.custody few
  have there := h.listed.lt_length hp
  have none : c.waiting = [] := by simp [waiting, closed.outgoing, closed.retry, closed.pending]
  have settled : p ∈ c.settled := by
    have once := custody.accounted.once
    rw [none] at once
    exact once.mem_iff.mpr (List.mem_range.mpr there)
  have here := List.getElem?_eq_getElem there
  exact ⟨settled, _, here, (custody.accounted.completed here).mpr settled⟩

/-- The steps in which a shutdown is noticed, by the carrier while it has a session or looks for
another one, or else by the call to close, which fails what no carrier took up. -/
inductive Notices (c : Connection) : Action → Prop where
  | hungUp (told : Bool) : Notices c (.hangUp told)
  | stopped {s} (seeking : c.carrier = .seeking s) (resumes : s.resumes = true) : Notices c .stop
  | withheld {s} (seeking : c.carrier = .seeking s) (resumes : s.resumes = true)
    (ready : s.phase = .ready) (stops : s.begin c.settings c.now c.shutdown = .stopped) :
    Notices c .seek
  | entered {t calls} (turn : c.calls = (t, .close) :: calls) : Notices c .enter

/-- Wherever the shutdown is noticed, the connection is closed in that step. -/
theorem Notices.closeOut {c c' : Connection} {a : Action} (h : Notices c a)
    (taken : c.step a = some c') :
    c'.carrier = .finished ∧ ∃ b, Quiet c b ∧ Quiet b.closeOut c' := by
  cases h with
  | hungUp told =>
    have taken : c.hangUp told = some c' := taken
    unfold hangUp at taken
    split at taken
    · split at taken
      · obtain rfl := Option.some.inj taken
        exact ⟨rfl, _, c.quiet_record rfl, .refl _⟩
      · cases taken
    · cases taken
  | @stopped s seeking resumes =>
    have stops : c.searchStopped s = c.closeOut := if_pos resumes
    have taken : c.stop = some c' := taken
    simp only [stop, seeking, stops] at taken
    split at taken
    · split at taken
      · exact Option.some.inj taken ▸ ⟨rfl, c, .refl c, .refl _⟩
      · exact Option.some.inj taken ▸ ⟨rfl, c, .refl c, .refl _⟩
      · cases taken
    · cases taken
  | @withheld s seeking resumes ready stops =>
    have stopped : c.searchStopped s = c.closeOut := if_pos resumes
    have taken : c.seek = some c' := taken
    simp only [seek, seeking, ready, stops, proceed, stopped] at taken
    exact Option.some.inj taken ▸ ⟨rfl, c, .refl c, .refl _⟩
  | @entered t calls turn =>
    have taken : c.enter = some c' := taken
    obtain ⟨_, _, _, row, ⟨_, rfl, _⟩ | ⟨_, _, rfl, _⟩ | ⟨_, rfl⟩⟩ := enter_cases taken
    · cases turn.symm.trans row
    · cases turn.symm.trans row
    · refine ⟨stance_eq_finished.mp (steady_returnFirst _ _).stance, c, .refl c, ?_⟩
      exact Quiet.overlooksCalls.returnFirst _ _

theorem mem_completions_closeOut {b c c' : Connection} (before : Quiet c b)
    (after : Quiet b.closeOut c') {k : Completion} (hk : k ∈ c'.completions) :
    k ∈ c.completions ∨ k.result = .error .connectionClosed := by
  rw [after.completions] at hk
  -- The connection is named, as otherwise it is looked for by unfolding `closeOut` again and again.
  rcases mem_completions_failAll (c := b.finishClosed) (f := .connectionClosed) hk with
    old | ⟨-, result⟩
  · exact .inl ((before.trans (Quiet.overlooksSessions.finishClosed b)).completions ▸ old)
  · exact .inr result

theorem Over.mem_completions {c c' : Connection} (h : Over c) {who : Option Ticket}
    (m : Move c who c') {k : Completion} (hk : k ∈ c'.completions) : k ∈ c.completions := by
  refine (m.origin hk).resolve_right fun new => ?_
  have waits := new.mem_waiting
  simp [waiting, h.outgoing, h.retry, h.pending] at waits

theorem Reachable.mem_completions_of_notices {settings : Settings} {roster : Roster}
    {c c' d : Connection} {a : Action} {actions : List Action} (h : Reachable settings roster c)
    (notices : Notices c a) (taken : c.step a = some c') (run : c'.run actions = some d) :
    ∀ k ∈ d.completions, k ∈ c.completions ∨ k.result = .error .connectionClosed := by
  obtain ⟨finished, b, before, after⟩ := notices.closeOut taken
  have since : Reachable settings roster d ∧ d.carrier = .finished ∧
      ∀ k ∈ d.completions, k ∈ c.completions ∨ k.result = .error .connectionClosed := by
    refine run_invariant (P := fun d => Reachable settings roster d ∧ d.carrier = .finished ∧
      ∀ k ∈ d.completions, k ∈ c.completions ∨ k.result = .error .connectionClosed)
      (fun a ⟨reached, finished, known⟩ taken => ?_)
      ⟨h.step a taken, finished, fun k => mem_completions_closeOut before after⟩ run
    refine ⟨reached.step a taken, (turn_of_step taken).finished finished, fun k hk => known k ?_⟩
    exact (reached.over finished).mem_completions (move_of_step taken) hk
  exact since.2.2

/-- A call to close comes back without any help from outside, unless a request is half written.
From then on the connection is closed for good: there is no session and no search for one, no packet
is accepted, and whatever is done to it has no effect. While the numbers do not run out, all packets
that were accepted are completed. From the step in which the shutdown is noticed, packets are
completed with the failure that tells of the end and no other, and those that were completed before
keep their results. -/
theorem Reachable.closed_for_good {settings : Settings} {roster : Roster} {c : Connection}
    (h : Reachable settings roster c) :
    (∀ t, (t, .close) ∈ c.calls → (∀ d, c.carrier = .driving d → d.writing = false) →
      ∃ d, Leads c d ∧ d.calls = []) ∧
    (∀ t a c', (t, .close) ∈ c.calls → c.step a = some c' → (t, .close) ∉ c'.calls →
      ∀ actions d, c'.run actions = some d →
        Over d ∧ Inert d ∧ d.acceptances = c'.acceptances ∧
        (d.sends < UInt32.size → ∀ p ∈ d.acceptances,
          p ∈ d.settled ∧ ∃ packet, d.packets[p]? = some packet ∧ packet.completed = true)) ∧
    ∀ a c', Notices c a → c.step a = some c' → ∀ actions d, c'.run actions = some d →
      Keeps c d ∧ ∀ k ∈ d.completions, k ∈ c.completions ∨ k.result = .error .connectionClosed := by
  refine ⟨fun t waits idle => h.exists_leads (h.asked t waits) idle, ?_, ?_⟩
  · intro t a c' waits taken back actions d run
    obtain ⟨-, -, rfl⟩ := h.closeOut_of_back taken waits back
    have asked := (stride_of_step taken).shutdown (h.asked t waits)
    have ended : (c.closeOut.returnFirst (.ok ())).carrier = .finished :=
      stance_eq_finished.mp (steady_returnFirst _ _).stance
    obtain ⟨finished, same⟩ := finished_of_run ended run
    have reached := (h.step a taken).run run
    have closed := reached.over finished
    have still : d.shutdown = true := run_invariant (P := fun d => d.shutdown = true)
      (fun _ asked taken => (stride_of_step taken).shutdown asked) asked run
    exact ⟨closed, closed.inert still, same,
      fun few p hp => reached.completed_of_over closed few hp⟩
  · intro a c' notices taken actions d run
    exact ⟨(h.keeps_of_step taken).trans ((h.step a taken).keeps_of_run run),
      h.mem_completions_of_notices notices taken run⟩

/-- A connection is closed while one of two packets waits for its response and the other for its
turn. Both are told so. -/
theorem closed_for_good_of_two : ∃ c c' c'' : Connection, Reachable {}
    { endpoints := [⟨"localhost", 7000⟩], nonempty := by simp } c ∧
    (∃ d, Leads c d ∧ d.calls = []) ∧
    c.completions.length = 0 ∧ c.step (.hangUp true) = some c' ∧
    (∀ k ∈ c''.completions, k ∈ c.completions ∨ k.result = .error .connectionClosed) ∧
    c'.calls = [(3, .close)] ∧ c'.step .enter = some c'' ∧ c''.calls = [] ∧
    Over c'' ∧ Inert c'' ∧ c''.acceptances = [1, 0] ∧ 0 ∈ c''.settled ∧ 1 ∈ c''.settled := by
  have outcome : ((start {} { endpoints := [⟨"localhost", 7000⟩], nonempty := by simp }).run
      [.callConnect 1000, .enter, .seek, .seek, .seek,
        .answer (.ok (.connected { sessionId := 7, sessionTimeoutMs := 0 })),
        .beginSend .getAllServices .empty .returns, .reserve 0, .number 0, .enqueue 0, .write .done,
        .beginSend .getAllServices .empty .returns, .reserve 0, .number 0, .enqueue 0,
        .callClose]).bind (fun c => (c.step (.hangUp true)).bind fun c' =>
          (c'.step .enter).map fun c'' => ([c.calls, c'.calls, c''.calls], c.completions.length,
            c''.sends, c''.acceptances)) =
      some ([[(3, .close)], [(3, .close)], []], 0, 2, [1, 0]) := by decide +kernel
  obtain ⟨c, run, outcome⟩ := Option.bind_eq_some_iff.mp outcome
  obtain ⟨c', hung, outcome⟩ := Option.bind_eq_some_iff.mp outcome
  obtain ⟨c'', taken, facts⟩ := Option.map_eq_some_iff.mp outcome
  simp only [Prod.mk.injEq, List.cons.injEq, and_true] at facts
  obtain ⟨⟨calls, waits, back⟩, none, sends, accepted⟩ := facts
  have reached := Reachable.start.run run
  have idle : ∀ d, c.carrier = .driving d → d.writing = false := by
    intro d driving
    have hung : c.hangUp true = some c' := hung
    simp only [hangUp, driving] at hung
    split at hung
    · rename_i ends
      simpa using (Bool.and_eq_true_iff.mp ends).2
    · cases hung
  obtain ⟨leads, -, noticed⟩ := reached.closed_for_good
  obtain ⟨-, ended, -⟩ := (reached.step _ hung).closed_for_good
  obtain ⟨closed, inert, -, all⟩ :=
    ended 3 _ c'' (by simp [waits]) taken (by simp [back]) [] c'' rfl
  have all := all (by rw [sends]; decide)
  have told : c'.run [.enter] = some c'' := by simp [Connection.run, taken]
  exact ⟨c, c', c'', reached, leads 3 (by simp [calls]) idle, none, hung,
    (noticed _ c' (.hungUp true) hung _ c'' told).2, waits, taken, back, closed, inert, accepted,
    (all 0 (by simp [accepted])).1, (all 1 (by simp [accepted])).1⟩

theorem Slow.idle_of_displaced {n p : Nat} {c c' : Connection} (h : Slow n [p] [] [] c)
    (taken : c.step (.write .done) = some c') :
    (∀ d, c'.carrier = .driving d → d.writing = false) ∧ c'.holding = .held ∧
      c'.packets.length = n := by
  obtain ⟨d, driving, -⟩ := h.session
  obtain ⟨packet, at_, new, -, request⟩ := h.fresh p (by simp)
  have written := step_write_done driving h.running h.retry h.outgoing at_ new
    (packet.isOversized_of_empty request)
  obtain rfl := Option.some.inj (taken.symm.trans written)
  refine ⟨fun d' same => ?_, h.held, by simp [record, updatePacket, h.length]⟩
  obtain rfl := Carrier.driving.inj same
  rfl

/-- A session on which nothing will be told about the first packet, and which may be closed. -/
theorem exists_forsaken : ∃ c : Connection,
    Reachable {} { endpoints := [⟨"localhost", 7000⟩], nonempty := by simp } c ∧ Forsaken 0 c ∧
    0 < c.packets.length ∧ (∀ d, c.carrier = .driving d → d.writing = false) ∧
    c.holding = .held := by
  obtain ⟨c₀, reached₀, slow₀⟩ := exists_slow
  obtain ⟨c₁, reached₁, slow₁⟩ := slow₀.exists_of_lt reached₀ (k := UInt32.size - 1) (by decide)
  obtain ⟨b, actions, sent, slow⟩ := slow₁.send
  have reached := reached₁.run sent
  obtain ⟨-, c, taken, written, waiting, settled⟩ := slow.displace rfl
  obtain ⟨idle, held, length⟩ := slow.idle_of_displaced taken
  have waits : (1, 0) ∈ b.pending := by simp [slow.pending]
  refine ⟨c, reached.step _ taken, ⟨?_, fun hp => ?_, settled ▸ slow.uncompleted⟩,
    length ▸ Nat.succ_pos _, idle, held⟩
  · exact written ▸ List.mem_cons_of_mem _ (reached.lined.awaited _ waits)
  · have hp := mem_waiting_iff.mpr (.inr hp)
    simp [waiting] at hp

/-- Without a limit to the number of sends, a packet can be left without a result when a call to
close has come back, and after that nothing is told about it. -/
theorem exists_left_uncompleted : ∃ (c c' : Connection) (a : Action) (t : Ticket) (p : PacketId),
    Reachable {} { endpoints := [⟨"localhost", 7000⟩], nonempty := by simp } c ∧
    (t, .close) ∈ c.calls ∧ c.step a = some c' ∧ (t, .close) ∉ c'.calls ∧ p ∈ c'.acceptances ∧
    ∀ actions d, c'.run actions = some d → p ∉ d.settled ∧
      ∃ packet, d.packets[p]? = some packet ∧ packet.completed = false := by
  obtain ⟨b, reached, lost, there, idle, held⟩ := exists_forsaken
  -- The caller closes the connection, and nothing holds that up.
  have called : b.step .callClose = some b.callClose := by simp [step, Action.isCall, held]
  have next := reached.step _ called
  obtain ⟨e, ⟨own, -, run⟩, none⟩ := next.exists_leads rfl idle
  have waits : (b.nextTicket, .close) ∈ b.callClose.calls := by simp [callClose, addCall]
  obtain ⟨front, a, -, c, c', -, reach, taken, before, back, -⟩ := exists_step_of_run
    (P := fun c => (b.nextTicket, .close) ∉ c.calls) run (not_not_intro waits) (by simp [none])
  have closes : b.run (.callClose :: front ++ [a]) = some c' := by
    simp only [Connection.run] at reach ⊢
    simp [called, reach, taken]
  have ended := reached.run closes
  have there (actions : List Action) {d : Connection} (run : c'.run actions = some d) :
      0 < d.packets.length :=
    Nat.lt_of_lt_of_le there (Nat.le_trans (length_le_of_run closes) (length_le_of_run run))
  refine ⟨c, c', a, b.nextTicket, 0, next.run reach, Classical.not_not.mp before, taken, back, ?_,
    fun actions d run => ?_⟩
  · rw [ended.listed, List.mem_reverse, List.mem_range, numbers, List.length_map]
    exact there [] rfl
  · have uncompleted :=
      (ended.forsaken_of_run (reached.forsaken_of_run lost closes) run).uncompleted
    have here := List.getElem?_eq_getElem (there actions run)
    exact ⟨uncompleted, _, here, Bool.eq_false_iff.mpr fun completed =>
      uncompleted ((ended.run run).mem_settled_of_completed here completed)⟩

end ServiceDirectory.Connection
