import ServiceDirectory.Proofs.Connection.Calls
import ServiceDirectory.Proofs.Connection.Causes
import ServiceDirectory.Proofs.Connection.Records

/-! What becomes of the packets when a first search comes to nothing. Until there has been a
session, every packet that is not completed waits in the queue. The call to connect comes back with
the failure of the search, and the packets are failed with what that failure is turned into for
them: a timeout stays what it is, and anything else becomes a loss of the connection that tells the
failure in its text. So the code of a failure of another kind is lost on the way to the packets. -/
namespace ServiceDirectory

namespace Failure

theorem ofConnect_of_isTimeout {f : Failure} (h : f.isTimeout = true) : f.ofConnect = f := by
  cases f <;> first | rfl | cases h

theorem code_ofConnect_of_not {f : Failure} (h : f.isTimeout = false) :
    f.ofConnect.code = .named .connectionLoss := by
  cases f <;> first | rfl | cases h

theorem code_ofConnect_eq_iff (f : Failure) :
    f.ofConnect.code = f.code ↔ f.isTimeout = true ∨ f.code = .named .connectionLoss := by
  cases timeout : f.isTimeout with
  | true => simp [ofConnect_of_isTimeout timeout]
  | false => simp [code_ofConnect_of_not timeout, eq_comm]

end Failure

theorem Packet.errorCode_ended {p : Packet} (unfinished : p.completed = false) (now : Nat)
    (f : Failure) : (p.ended now (.error f)).errorCode = some f.code := by
  simp [ended, complete?, unfinished]

namespace Connection

/-! ### Before the first session -/

theorem retry_searchFailed (c : Connection) (s : Search) (f : Failure) :
    (c.searchFailed s f).retry = c.retry ∨ (c.searchFailed s f).retry = [] := by
  unfold searchFailed
  split
  · exact .inr c.closeOut_drained.2.1
  · obtain ⟨c₁, failing, after⟩ := c.exists_quiet_connectFailed f
    exact .inl (after.retry.trans ((retry_failAll _ _ _).trans failing.retry))

theorem retry_searchStopped (c : Connection) (s : Search) :
    (c.searchStopped s).retry = c.retry ∨ (c.searchStopped s).retry = [] := by
  unfold searchStopped
  split
  · exact .inr c.closeOut_drained.2.1
  · exact .inl (Quiet.overlooksCalls.returnFirst _ _).retry

theorem SearchStep.retry {c c' : Connection} {s : Search} {a : Action}
    (m : SearchStep c s a c') : c'.retry = c.retry ∨ c'.retry = [] := by
  cases m with
  | begun | waited | counted | passedOver | chose => exact .inl rfl
  | spent | deserted => exact retry_searchFailed _ _ _
  | opened =>
    obtain ⟨b, started, after⟩ :=
      Quiet.overlooksSessions.openSession Quiet.overlooksCalls c s _
    exact .inl (after.retry.trans started.retry)
  | failed | timedOut => exact .inl (c.quiet_attemptFailed _ _ _).retry
  | stopped => exact retry_searchStopped _ _

theorem retry_of_step {c c' : Connection} {a : Action} (taken : c.step a = some c')
    (away : ∀ d, c.carrier ≠ .driving d) : c'.retry = c.retry ∨ c'.retry = [] := by
  cases stepped_of_step taken with
  | passed | listened | unlistened | letGo | called | asked => exact .inl rfl
  | listed endpoints => exact .inl (c.quiet_updateRoster endpoints).retry
  | sent actor m => cases m <;> exact .inl rfl
  | call m =>
    cases m with
    | sought | left => exact .inl rfl
    | turnedAway => exact .inl (Quiet.overlooksCalls.returnFirst c _).retry
    | closed =>
      exact .inr ((Quiet.overlooksCalls.returnFirst _ _).retry.trans c.closeOut_drained.2.1)
    | gone => exact .inr (closeOut_drained _).2.1
  | searched seeking m => exact m.retry
  | wrote driving => exact absurd driving (away _)
  | used driving => exact absurd driving (away _)
  | delivered m =>
    cases m with
    | ran =>
      obtain ⟨_, _, shape⟩ := invoke_shape _ _
      rw [shape]
      exact .inl rfl
    | told => exact .inl rfl

theorem not_begun_of_step {c c' : Connection} {a : Action} (taken : c.step a = some c')
    (new : c'.stance.begun = false) :
    c.stance.begun = false ∧ ∀ d, c.carrier ≠ .driving d := by
  have before : c.stance.begun = false := by
    refine Bool.eq_false_iff.mpr fun begun => ?_
    cases new.symm.trans ((turn_of_step taken).begun begun)
  refine ⟨before, fun d driving => ?_⟩
  rw [stance, driving] at before
  cases before

theorem Reachable.retry_of_not_begun {settings : Settings} {roster : Roster} {c : Connection}
    (h : Reachable settings roster c) (new : c.stance.begun = false) : c.retry = [] := by
  induction h with
  | start => rfl
  | step a reached taken ih =>
    obtain ⟨before, away⟩ := not_begun_of_step taken new
    exact (retry_of_step taken away).elim (·.trans (ih before)) id

/-- However many packets there are, their numbers cannot meet before they are written. -/
theorem Reachable.custody_of_not_begun {settings : Settings} {roster : Roster} {c : Connection}
    (h : Reachable settings roster c) (new : c.stance.begun = false) : Custody [] c := by
  induction h with
  | start => exact .start settings roster
  | step a reached taken ih =>
    obtain ⟨before, away⟩ := not_begun_of_step taken new
    exact (ih before).move (fun d driving => absurd driving (away d)) (move_of_step taken)

theorem not_begun_of_seeking {c : Connection} {s : Search} (seeking : c.carrier = .seeking s)
    (first : s.resumes = false) : c.stance.begun = false := by
  rw [stance, seeking]
  exact first

theorem stance_ne_driving {c : Connection} {s : Search} (seeking : c.carrier = .seeking s)
    (session : Session) : c.stance ≠ .driving session := by
  simp [stance, seeking, Carrier.stance]

theorem Reachable.mem_outgoing {settings : Settings} {roster : Roster} {c : Connection} {s : Search}
    {p : PacketId} (h : Reachable settings roster c) (seeking : c.carrier = .seeking s)
    (first : s.resumes = false) (accepted : p ∈ c.acceptances) (open_ : p ∉ c.settled) :
    p ∈ c.outgoing := by
  have new := not_begun_of_seeking seeking first
  have hm : p ∈ c.waiting ++ c.settled :=
    (h.custody_of_not_begun new).accounted.once.mem_iff.mpr
      (List.mem_range.mpr (h.listed.lt_length accepted))
  have waits := (List.mem_append.mp hm).resolve_right open_
  rwa [waiting, h.retry_of_not_begun new, h.rested.away (stance_ne_driving seeking), List.map_nil,
    List.append_nil, List.append_nil] at waits

/-! ### The end of a first search -/

theorem history_returnFirst {c : Connection} {t : Ticket} {call : Call}
    {calls : List (Ticket × Call)} (row : c.calls = (t, call) :: calls) (r : Except Failure Unit) :
    (c.returnFirst r).history = .returned t r :: c.history := by
  rw [returnFirst, row]
  rfl

theorem history_connectFailed {c : Connection} {t : Ticket} {call : Call}
    {calls : List (Ticket × Call)} (row : c.calls = (t, call) :: calls) (f : Failure) :
    (c.connectFailed f).history.head? = some (.returned t (.error f)) := by
  obtain ⟨b, failed, same⟩ :=
    SameCalls.overlooksSessions.connectFailed SameCalls.overlooksPackets c f
  have row : b.calls = (t, call) :: calls := failed.trans row
  rw [same, history_returnFirst (c := { b with carrier := .free }) row]
  rfl

theorem exists_of_first_search {c c' : Connection} {s : Search} {a : Action}
    (taken : c.step a = some c') (seeking : c.carrier = .seeking s) (first : s.resumes = false)
    (free : c'.carrier = .free) :
    (∃ f, c' = c.connectFailed f) ∨
      c.shutdown = true ∧
        c' = { c with carrier := .free }.returnFirst (.error .connectionClosed) := by
  have apart {b : Connection} (q : Apart b c') : b.pursuit = .free := by
    rw [← q.pursuit, pursuit, free]
    rfl
  have still : c.pursuit = .seeking s := pursuit_eq_seeking.mpr seeking
  cases stride_of_step taken with
  | apart other q => cases still.symm.trans (apart q)
  | asked cause q => cases still.symm.trans (apart (b := { c with shutdown := true }) q)
  | replaced => cases seeking.symm.trans free
  | sought idle => cases seeking.symm.trans idle
  | lost other driving => cases seeking.symm.trans driving
  | ended other away => exact absurd seeking (away s)
  | begun | waited | counted | passedOver | chose => cases free
  | opened => cases apart (apart_openSession _ _ _)
  | failed | timedOut => cases apart (apart_attemptFailed _ _ _ _)
  | spent before | deserted before =>
    obtain rfl := Carrier.seeking.inj (before.symm.trans seeking)
    exact .inl ⟨_, if_neg (by simp [first])⟩
  | stopped stops before asked =>
    obtain rfl := Carrier.seeking.inj (before.symm.trans seeking)
    exact .inr ⟨asked, if_neg (by simp [first])⟩

theorem Custody.told_of_connectFailed {c : Connection} (h : Custody [] c) {p : PacketId}
    (hp : p ∈ c.outgoing) (f : Failure) : ∃ x, (c.connectFailed f).packets[p]? = some x ∧
      x.completed = true ∧ x.errorCode = some f.ofConnect.code := by
  obtain ⟨c₁, failing, after⟩ := c.exists_quiet_connectFailed f
  have inHand : p ∈ c.waiting := mem_waiting_iff.mpr (.inl (List.mem_append_right _ hp))
  obtain ⟨x, here, unfinished⟩ := h.accounted.incomplete inHand
  refine ⟨x.ended c₁.now (.error f.ofConnect), ?_, x.completed_ended unfinished _ _,
    x.errorCode_ended unfinished _ _⟩
  rw [after.packets, getElem?_failOutgoing, failing.outgoing, if_pos hp, failing.packets, here]
  rfl

theorem Custody.queued_connectFailed {c : Connection} (h : Custody [] c) (f : Failure) :
    (c.connectFailed f).queued =
      c.queued ++ c.outgoing.map fun p => ⟨p, .error f.ofConnect⟩ := by
  obtain ⟨c₁, failing, after⟩ := c.exists_quiet_connectFailed f
  have accounted : Accounted (c₁.outgoing ++ (c₁.retry ++ c₁.pending.map (·.2))) c₁ :=
    List.append_assoc c₁.outgoing _ _ ▸ (h.quiet failing).accounted
  rw [after.queued, ← failing.queued, ← failing.outgoing]
  exact queued_failAll accounted f.ofConnect

/-- When the search for a first session is over without one, the call to connect comes back with a
failure. Either the shutdown has stopped it, and the packets stay
in the queue; or the search has failed, and every packet that was accepted and not completed is
completed with an error, in the order of the queue. The code of that error is the code of the
failure if this is a timeout or has the code of a lost connection, and otherwise it is the code of
a lost connection, which the failure does not have. -/
theorem Reachable.packets_of_first_search {settings : Settings} {roster : Roster}
    {c c' : Connection} {s : Search} {a : Action} (h : Reachable settings roster c)
    (seeking : c.carrier = .seeking s) (first : s.resumes = false) (taken : c.step a = some c')
    (free : c'.carrier = .free) :
    ∃ t timeout f, c.calls = (t, .connect timeout) :: c'.calls ∧
      c'.history.head? = some (.returned t (.error f)) ∧
      ((c.shutdown = true ∧ f = .connectionClosed ∧ c'.outgoing = c.outgoing ∧
          c'.packets = c.packets) ∨
        (c'.queued = c.queued ++ c.outgoing.map fun p => ⟨p, .error f.ofConnect⟩) ∧
        ∀ p ∈ c.acceptances, p ∉ c.settled → p ∈ c.outgoing ∧
          ∃ x, c'.packets[p]? = some x ∧ x.completed = true ∧
            (x.errorCode = some f.code ↔ f.isTimeout = true ∨ f.code = .named .connectionLoss) ∧
            (x.errorCode ≠ some f.code → x.errorCode = some (.named .connectionLoss))) := by
  obtain ⟨t, timeout, calls, row⟩ := h.served s seeking first
  rcases exists_of_first_search taken seeking first free with ⟨f, rfl⟩ | ⟨asked, rfl⟩
  · have custody := h.custody_of_not_begun (not_begun_of_seeking seeking first)
    refine ⟨t, timeout, f, ?_, history_connectFailed row f,
      .inr ⟨custody.queued_connectFailed f, fun p accepted open_ => ?_⟩⟩
    · rw [calls_connectFailed, row]
      rfl
    · have waits := h.mem_outgoing seeking first accepted open_
      obtain ⟨x, here, done, code⟩ := custody.told_of_connectFailed waits f
      refine ⟨waits, x, here, done, ?_, fun differs => ?_⟩
      · rw [code, Option.some.injEq]
        exact f.code_ofConnect_eq_iff
      · cases timeout : f.isTimeout with
        | true => exact absurd (code.trans (by rw [f.ofConnect_of_isTimeout timeout])) differs
        | false => rw [code, f.code_ofConnect_of_not timeout]
  · refine ⟨t, timeout, _, ?_, ?_, .inl ⟨asked, rfl, ?_, ?_⟩⟩
    · rw [calls_returnFirst, row]
      rfl
    · rw [history_returnFirst (c := { c with carrier := .free }) row]
      rfl
    · exact (Quiet.overlooksCalls.returnFirst _ _).outgoing
    · exact (Quiet.overlooksCalls.returnFirst _ _).packets

def Event.failure? : Event → Option Failure
  | .returned _ (.error f) => some f
  | _ => none

/-- A packet that waits for a server which never answers is told that the connect timed out. -/
theorem packets_of_first_search_timedOut : ∃ (c c' : Connection) (s : Search) (t : Ticket)
    (f : Failure) (x : Packet), Reachable { retry := { maxRetries := 0 } }
      { endpoints := [⟨"localhost", 7000⟩], nonempty := by simp } c ∧
    c.carrier = .seeking s ∧ s.resumes = false ∧ c.step .seek = some c' ∧ c'.carrier = .free ∧
    0 ∈ c.acceptances ∧ 0 ∉ c.settled ∧ c'.history.head? = some (.returned t (.error f)) ∧
    c'.packets[0]? = some x ∧ x.errorCode = some f.code := by
  have outcome : ((start { retry := { maxRetries := 0 } }
      { endpoints := [⟨"localhost", 7000⟩], nonempty := by simp }).run
      [.beginSend .getAllServices .empty .returns, .reserve 0, .number 0, .enqueue 0,
        .callConnect 1000000, .enter, .seek, .seek, .seek, .advance 1000000,
        .timeOut]).bind (fun c => (c.step .seek).map fun c' => (c.pursuit,
        decide (c.acceptances = [0] ∧ c.settled = []), c'.pursuit,
        c'.history.head?.bind Event.failure?)) =
      some (.seeking { Search.initial 0 1000000 with
          attempt := 1
          lastEndpoint := some ⟨"localhost", 7000⟩
          lastError := some (.connectTimeout ⟨"localhost", 7000⟩ 1) },
        true, .free, some (.connectTimeout ⟨"localhost", 7000⟩ 1)) := by decide +kernel
  obtain ⟨c, run, outcome⟩ := Option.bind_eq_some_iff.mp outcome
  obtain ⟨c', taken, facts⟩ := Option.map_eq_some_iff.mp outcome
  simp only [Prod.mk.injEq] at facts
  obtain ⟨seeking, packets, free, told⟩ := facts
  obtain ⟨accepted, settled⟩ := of_decide_eq_true packets
  have reached := Reachable.start.run run
  have seeking := pursuit_eq_seeking.mp seeking
  have free : c'.carrier = .free := pursuit_eq_aftermath (s := Search.initial 0 0).mp free
  have queued : 0 ∈ c.acceptances := by simp [accepted]
  have open_ : 0 ∉ c.settled := by simp [settled]
  obtain ⟨t, timeout, f, -, back, told'⟩ :=
    reached.packets_of_first_search seeking rfl taken free
  rw [back] at told
  obtain rfl := Option.some.inj told
  rcases told' with ⟨-, stopped, -⟩ | ⟨-, packets⟩
  · cases stopped
  · obtain ⟨-, x, here, -, code, -⟩ := packets 0 queued open_
    exact ⟨c, c', _, t, _, x, reached, seeking, rfl, taken, free, queued, open_, back, here,
      code.mpr (.inl rfl)⟩

/-- A server that turns down the credentials: the call is told so, the packet that the connection
is lost. -/
theorem exists_code_ne_of_first_search : ∃ (c c' : Connection) (s : Search) (t : Ticket)
    (f : Failure) (x : Packet), Reachable { retry := { maxRetries := 0 } }
      { endpoints := [⟨"localhost", 7000⟩], nonempty := by simp } c ∧
    c.carrier = .seeking s ∧ s.resumes = false ∧ c.step .seek = some c' ∧ 0 ∈ c.outgoing ∧
    c'.history.head? = some (.returned t (.error f)) ∧ c'.packets[0]? = some x ∧
    f.code = .named .authenticationFailed ∧ x.errorCode = some (.named .connectionLoss) ∧
    x.errorCode ≠ some f.code := by
  have outcome : ((start { retry := { maxRetries := 0 } }
      { endpoints := [⟨"localhost", 7000⟩], nonempty := by simp }).run
      [.beginSend .getAllServices .empty .returns, .reserve 0, .number 0, .enqueue 0,
        .callConnect 1000000, .enter, .seek, .seek, .seek,
        .answer (.ok (.authFailed "denied"))]).bind (fun c =>
      (c.step .seek).map fun c' => (c.pursuit, c.outgoing, c'.history.head?.bind Event.failure?,
        c'.packets[0]?.map (·.errorCode))) =
      some (.seeking { Search.initial 0 1000000 with
          attempt := 1
          lastEndpoint := some ⟨"localhost", 7000⟩
          lastError := some (.authFailed ⟨"localhost", 7000⟩ "denied") },
        [0], some (.authFailed ⟨"localhost", 7000⟩ "denied"),
        some (some (.named .connectionLoss))) := by decide +kernel
  obtain ⟨c, run, outcome⟩ := Option.bind_eq_some_iff.mp outcome
  obtain ⟨c', taken, facts⟩ := Option.map_eq_some_iff.mp outcome
  simp only [Prod.mk.injEq] at facts
  obtain ⟨seeking, waits, told, code⟩ := facts
  obtain ⟨e, first, told⟩ := Option.bind_eq_some_iff.mp told
  obtain ⟨x, here, code⟩ := Option.map_eq_some_iff.mp code
  have seeking := pursuit_eq_seeking.mp seeking
  have waits : 0 ∈ c.outgoing := by simp [waits]
  cases e with
  | returned t r =>
    cases r with
    | ok _ => cases told
    | error f =>
      obtain rfl := Option.some.inj told
      exact ⟨c, c', _, t, _, x, Reachable.start.run run, seeking, rfl, taken, waits, first, here,
        rfl, code, by rw [code]; decide⟩
  | _ => cases told

end Connection
end ServiceDirectory
