import ServiceDirectory.Proofs.Connection.Turns

/-! What a connection can be in. Its status, and whether it has a session, follow from what the
carrier is about; so does which packets it can hold: only on a session do packets wait for
responses, and when the carrier has finished none is left. -/
namespace ServiceDirectory

def ConnectionStatus.isIdle (s : ConnectionStatus) : Bool := s.isAlive && !s.isConnected

def Session.status (s : Session) : ConnectionStatus :=
  if s.readOnly then .connectedReadonly else .connected

theorem ConnectionStatus.ne_closed_of_isIdle {s : ConnectionStatus} (h : s.isIdle = true) :
    s ≠ .closed := by
  rintro rfl
  cases h

theorem ConnectionStatus.ne_status_of_isIdle {s : ConnectionStatus} (h : s.isIdle = true)
    (session : Session) : s ≠ session.status := by
  rintro rfl
  unfold Session.status at h
  cases hr : session.readOnly <;> rw [hr] at h <;> cases h

theorem Session.status_ne_closed (s : Session) : s.status ≠ .closed := by
  unfold Session.status
  split <;> simp

theorem Session.status_ne_notConnected (s : Session) : s.status ≠ .notConnected := by
  unfold Session.status
  split <;> simp

theorem Session.isConnected_status (s : Session) : s.status.isConnected = true := by
  unfold Session.status
  split <;> rfl

namespace Connection

@[simp] theorem sessionId_transition (c : Connection) (next : ConnectionStatus) :
    (c.transition next).sessionId = c.sessionId := by
  unfold transition
  split <;> rfl

@[simp] theorem carrier_transition (c : Connection) (next : ConnectionStatus) :
    (c.transition next).carrier = c.carrier := by
  unfold transition
  split <;> rfl

@[simp] theorem status_endSession (c : Connection) : c.endSession.status = c.status := by
  unfold endSession
  split <;> rfl

@[simp] theorem sessionId_endSession (c : Connection) : c.endSession.sessionId = none := by
  unfold endSession
  split
  · rename_i h
    exact h
  · rfl

theorem status_sessionLost {c : Connection} (h : c.status ≠ .closed) (expired : Bool) :
    (c.sessionLost expired).status = .notConnected := by
  cases expired <;> simp [sessionLost, status_transition, h]

theorem sessionId_sessionLost (c : Connection) (expired : Bool) :
    (c.sessionLost expired).sessionId = if expired then none else c.sessionId := by
  cases expired <;> simp [sessionLost]

theorem sessionId_closeOut (c : Connection) : c.closeOut.sessionId = none := by
  have h : c.finishClosed.sessionId = none := by simp [finishClosed]
  exact c.steady_closeOut.sessionId.trans h

theorem sessionId_sessionStarted (c : Connection) (s : Session) (search : Search) :
    (c.sessionStarted s search).sessionId = some s.id := by
  unfold sessionStarted
  simp only
  split
  · simp [publish, record]
  · simp [publish, record]
  · split
    · simp [record]
    · simp [publish, record]

theorem status_sessionStarted {c : Connection} (h : c.status ≠ .closed) (s : Session)
    (search : Search) : (c.sessionStarted s search).status = s.status := by
  unfold sessionStarted Session.status
  simp only
  split
  · simp [publish, record, status_transition, h]
  · simp [publish, record, status_transition, h]
  · split
    · simp [record, status_transition, h]
    · simp [publish, record, status_transition, h]

/-- The status and the session that go with what the carrier is about. -/
def Stance.suits : Stance → ConnectionStatus → Option SessionId → Prop
  | .free, status, id => status.isIdle = true ∧ id = none
  | .seeking resumes offer, status, id =>
    status.isIdle = true ∧ id = offer ∧ (resumes = false → offer = none)
  | .driving s, status, id => status = s.status ∧ id = some s.id
  | .finished, status, id => status = .closed ∧ id = none

theorem Steady.suits {c c' : Connection} (q : Steady c c')
    (h : c.stance.suits c.status c.sessionId) : c'.stance.suits c'.status c'.sessionId := by
  rw [q.stance, q.status, q.sessionId]
  exact h

theorem suits_of_seeking {c : Connection} {s : Search} (h : c.stance.suits c.status c.sessionId)
    (seeking : c.carrier = .seeking s) :
    c.status.isIdle = true ∧ c.sessionId = s.offer ∧ (s.resumes = false → s.offer = none) := by
  rw [stance, seeking] at h
  exact h

theorem suits_of_driving {c : Connection} {d : Drive} (h : c.stance.suits c.status c.sessionId)
    (driving : c.carrier = .driving d) :
    c.status = d.session.status ∧ c.sessionId = some d.session.id := by
  rw [stance, driving] at h
  exact h

theorem status_sessionFailed {c : Connection} (h : c.status ≠ .closed) (f : Failure) :
    (c.sessionFailed f).status = .notConnected := by
  have q := Steady.overlooksPackets.failPending (c.record (.lost f)) f
  have alive : ((c.record (.lost f)).failPending f).status ≠ .closed := q.status ▸ h
  exact status_sessionLost alive (decide (f = .sessionExpired))

theorem sessionId_sessionFailed (c : Connection) (f : Failure) :
    (c.sessionFailed f).sessionId = if f = .sessionExpired then none else c.sessionId := by
  have q := Steady.overlooksPackets.failPending (c.record (.lost f)) f
  have id := sessionId_sessionLost ((c.record (.lost f)).failPending f)
    (decide (f = .sessionExpired))
  simp only [q.sessionId, decide_eq_true_eq] at id
  exact id

theorem stance_sessionFailed (c : Connection) (f : Failure) :
    (c.sessionFailed f).stance = .seeking true (c.sessionFailed f).sessionId := by
  have id := sessionId_sessionLost ((c.record (.lost f)).failPending f)
    (decide (f = .sessionExpired))
  simp only [sessionFailed, stance, Carrier.stance, Search.resuming, id]
  split <;> rfl

theorem suits_sessionFailed {c : Connection} (h : c.status ≠ .closed) (f : Failure) :
    (c.sessionFailed f).stance.suits (c.sessionFailed f).status (c.sessionFailed f).sessionId := by
  rw [stance_sessionFailed, status_sessionFailed h]
  exact ⟨rfl, rfl, fun hr => by cases hr⟩

theorem status_connectFailed {c : Connection} (h : c.status ≠ .closed) (f : Failure) :
    (c.connectFailed f).status =
      if c.status = .authFailed then .authFailed else .notConnected := by
  unfold connectFailed
  simp only
  rw [(steady_returnFirst _ (.error f)).status]
  simp only [(Steady.overlooksPackets.failOutgoing _ f.ofConnect).status]
  split
  · assumption
  · simp only [status_transition, h, if_false]

theorem sessionId_connectFailed (c : Connection) (f : Failure) :
    (c.connectFailed f).sessionId = c.sessionId := by
  unfold connectFailed
  simp only
  rw [(steady_returnFirst _ (.error f)).sessionId]
  simp only [(Steady.overlooksPackets.failOutgoing _ f.ofConnect).sessionId]
  split
  · rfl
  · rw [sessionId_transition]

theorem stance_connectFailed (c : Connection) (f : Failure) : (c.connectFailed f).stance = .free :=
  (steady_returnFirst _ _).stance

theorem suits_connectFailed {c : Connection} (h : c.status ≠ .closed)
    (out : c.sessionId = none) (f : Failure) :
    (c.connectFailed f).stance.suits (c.connectFailed f).status (c.connectFailed f).sessionId := by
  rw [stance_connectFailed, status_connectFailed h, sessionId_connectFailed]
  refine ⟨?_, out⟩
  split <;> rfl

theorem ne_closed_of_sessionId {c : Connection} (h : c.stance.suits c.status c.sessionId)
    {id : SessionId} (hid : c.sessionId = some id) : c.status ≠ .closed := by
  rw [hid] at h
  cases stance : c.stance with
  | free =>
    rw [stance] at h
    cases h.2
  | seeking resumes offer =>
    rw [stance] at h
    exact ConnectionStatus.ne_closed_of_isIdle h.1
  | driving s =>
    rw [stance] at h
    rw [h.1]
    exact s.status_ne_closed
  | finished =>
    rw [stance] at h
    cases h.2

theorem Turn.suits {c c' : Connection} (t : Turn c c')
    (h : c.stance.suits c.status c.sessionId) : c'.stance.suits c'.status c'.sessionId := by
  cases t with
  | steady q => exact q.suits h
  | sought idle alive timeout =>
    rw [stance, idle] at h
    exact ⟨h.1, h.2, fun _ => rfl⟩
  | attempted seeking q => exact q.suits h
  | @rejected s c₁ seeking before =>
    have hb := before.suits h
    obtain ⟨idle, -, -⟩ := suits_of_seeking h seeking
    have alive : c₁.status ≠ .closed := before.status ▸ ConnectionStatus.ne_closed_of_isIdle idle
    have kept : (c₁.transition .authFailed).stance = .seeking s.resumes s.offer := by
      rw [stance, carrier_transition]
      exact before.stance.trans (by rw [stance, seeking]; rfl)
    have same : c₁.stance = .seeking s.resumes s.offer :=
      before.stance.trans (by rw [stance, seeking]; rfl)
    rw [same] at hb
    rw [kept]
    refine ⟨?_, ?_, hb.2.2⟩
    · simp only [status_transition, alive, if_false]
      rfl
    · rw [sessionId_transition]
      exact hb.2.1
  | @opened search s d _ seeking uses after =>
    obtain ⟨idle, -, -⟩ := suits_of_seeking h seeking
    have alive := ConnectionStatus.ne_closed_of_isIdle idle
    refine after.suits ⟨?_, ?_⟩
    · exact (status_sessionStarted alive s search).trans (by rw [uses])
    · exact (sessionId_sessionStarted c s search).trans (by rw [uses])
  | lost driving before =>
    obtain ⟨status, -⟩ := suits_of_driving h driving
    refine suits_sessionFailed ?_ _
    rw [before.status, status]
    exact Session.status_ne_closed _
  | expired driving before =>
    obtain ⟨status, -⟩ := suits_of_driving h driving
    refine suits_sessionFailed ?_ _
    rw [record, before.status, status]
    exact Session.status_ne_closed _
  | gaveUp seeking first before =>
    obtain ⟨idle, id, offer⟩ := suits_of_seeking h seeking
    refine suits_connectFailed ?_ ?_ _
    · rw [before.status]
      exact ConnectionStatus.ne_closed_of_isIdle idle
    · rw [before.sessionId, id, offer first]
  | withdrew seeking first before after =>
    obtain ⟨idle, id, offer⟩ := suits_of_seeking h seeking
    refine after.suits ⟨?_, ?_⟩
    · rw [before.status]
      exact idle
    · rw [before.sessionId, id, offer first]
  | @closedOut c₁ _ before after drained =>
    exact after.suits ⟨c₁.status_closeOut, c₁.sessionId_closeOut⟩

/-- The status and the session follow from what the carrier is about. -/
theorem Reachable.suits {settings : Settings} {roster : Roster} {c : Connection}
    (h : Reachable settings roster c) : c.stance.suits c.status c.sessionId := by
  induction h with
  | start => exact ⟨rfl, rfl⟩
  | step a _ hs ih => exact (turn_of_step hs).suits ih

theorem Reachable.finished_iff {settings : Settings} {roster : Roster} {c : Connection}
    (h : Reachable settings roster c) : c.status = .closed ↔ c.carrier = .finished := by
  have suits := h.suits
  rw [stance] at suits
  constructor
  · intro closed
    rw [closed] at suits
    cases carrier : c.carrier with
    | free =>
      rw [carrier] at suits
      cases suits.1
    | seeking s =>
      rw [carrier] at suits
      cases suits.1
    | driving d =>
      rw [carrier] at suits
      exact absurd suits.1.symm d.session.status_ne_closed
    | finished => rfl
  · intro finished
    rw [finished] at suits
    exact suits.1

theorem SendMove.pending {c c' : Connection} {t : Ticket} (m : SendMove c t c') :
    c'.pending = c.pending := by
  cases m <;> rfl

theorem Move.pending_cases {c c' : Connection} {who : Option Ticket} (m : Move c who c') :
    c'.pending ⊆ c.pending ∨
    ∃ d id x c₁, c.carrier = .driving d ∧ Takes c id c₁ ∧
      ∀ q ∈ c'.pending, q ∈ c.pending ∨ q = (x, id) := by
  have same {a b : Connection} (h : b.pending = a.pending) : b.pending ⊆ a.pending :=
    h ▸ List.Subset.refl _
  have none {b : Connection} (h : b.pending = []) : b.pending ⊆ c.pending :=
    h ▸ List.nil_subset c.pending
  cases m with
  | quiet q => exact .inl (same q.pending)
  | sending m => exact .inl (same m.pending)
  | opened seeking q => exact .inl (same q.pending)
  | skipped takes packet done q => exact .inl (same (q.pending.trans takes.pending))
  | tooLarge takes packet q =>
    obtain ⟨-, -, pending, -⟩ := (completes_complete _ _ _).fields
    exact .inl (same (q.pending.trans (pending.trans takes.pending)))
  | @written d id p c₁ _ driving takes packet q =>
    refine .inr ⟨d, id, p.xid, c₁, driving, takes, fun r hr => ?_⟩
    rw [q.pending] at hr
    refine (List.mem_append.mp hr).imp (fun kept => ?_) List.mem_singleton.mp
    exact takes.pending ▸ (List.mem_filter.mp kept).1
  | stalled takes q =>
    have kept := takes.pending
    exact .inl (same (q.pending.trans kept))
  | broken driving takes own q => exact .inl (none q.pending)
  | stray driving unknown q => exact .inl (same q.pending)
  | @answered d r id c₁ driving known q =>
    obtain ⟨-, -, pending, -⟩ := (completes_complete ({ c₁ with
      pending := c₁.pending.filter (·.1 != r.xid) }.updatePacket id (·.markReceived c₁.now)) id
      (Packet.resultOf r)).fields
    left
    rw [pending]
    exact List.Subset.trans List.filter_sublist.subset (same q.pending)
  | lost driving own before after => exact .inl (none after.pending)
  | gaveUp seeking own before after =>
    exact .inl (same (after.pending.trans ((pending_failAll _ _ _).trans before.pending)))
  | closedOut before after =>
    refine .inl (none (after.pending.trans ((pending_failAll _ _ _).trans ?_)))
    rw [failRetry, pending_failAll, failPending]
  | delivered head ls =>
    obtain ⟨_, _, hk⟩ := invoke_shape ({ c with dispatches := _ }.record (.delivered _ ls)) _
    rw [hk]
    exact .inl (List.Subset.refl _)

theorem Move.pending_nil {c c' : Connection} {who : Option Ticket} (m : Move c who c')
    (away : ∀ s, c.stance ≠ .driving s) (h : c.pending = []) : c'.pending = [] := by
  rcases m.pending_cases with fewer | ⟨d, _, _, _, driving, -⟩
  · exact List.subset_nil.mp (h ▸ fewer)
  · exact absurd (by rw [stance, driving]; rfl) (away d.session)

theorem SendMove.drained {c c' : Connection} {t : Ticket} (m : SendMove c t c')
    (finished : c.carrier = .finished) (h : c.outgoing = [] ∧ c.retry = []) :
    c'.outgoing = [] ∧ c'.retry = [] := by
  cases m with
  | accepted split stage live => exact absurd finished live
  | _ => exact h

theorem Move.drained {c c' : Connection} {who : Option Ticket} (m : Move c who c')
    (finished : c.carrier = .finished) (h : c.outgoing = [] ∧ c.retry = []) :
    c'.outgoing = [] ∧ c'.retry = [] := by
  have notTaken {id : PacketId} {c₁ : Connection} (takes : Takes c id c₁) : False := by
    cases takes with
    | again head => exact absurd (h.2.symm.trans head) (by simp)
    | first none head => exact absurd (h.1.symm.trans head) (by simp)
  have kept {c₁ : Connection} (q : Quiet c₁ c') (h₁ : c₁.outgoing = [] ∧ c₁.retry = []) :
      c'.outgoing = [] ∧ c'.retry = [] := ⟨q.outgoing.trans h₁.1, q.retry.trans h₁.2⟩
  cases m with
  | quiet q => exact kept q h
  | sending m => exact m.drained finished h
  | opened seeking q => exact kept q h
  | skipped takes packet done q => exact (notTaken takes).elim
  | tooLarge takes packet q => exact (notTaken takes).elim
  | written driving takes packet q => exact (notTaken takes).elim
  | stalled takes q => exact (notTaken takes).elim
  | broken driving takes own q => exact (notTaken takes).elim
  | stray driving unknown q => exact kept q h
  | answered driving known q => cases finished.symm.trans driving
  | lost driving own before after => cases finished.symm.trans driving
  | gaveUp seeking own before after => cases finished.symm.trans seeking
  | closedOut before after =>
    refine kept after ⟨rfl, ?_⟩
    rw [failOutgoing, retry_failAll, failRetry]
  | delivered head ls =>
    obtain ⟨_, _, hk⟩ := invoke_shape ({ c with dispatches := _ }.record (.delivered _ ls)) _
    rw [hk]
    exact h

structure Rested (c : Connection) : Prop where
  away : (∀ s, c.stance ≠ .driving s) → c.pending = []
  finished : c.carrier = .finished → c.outgoing = [] ∧ c.retry = []

theorem pending_sessionFailed (c : Connection) (f : Failure) :
    (c.sessionFailed f).pending = [] := by
  have q := Quiet.overlooksSessions.sessionLost ((c.record (.lost f)).failPending f)
    (decide (f = .sessionExpired))
  exact q.pending

theorem stance_eq_finished {c : Connection} : c.stance = .finished ↔ c.carrier = .finished := by
  unfold stance
  cases c.carrier <;> simp [Carrier.stance]

theorem stance_eq_driving {c : Connection} {s : Session} :
    c.stance = .driving s ↔ ∃ d, c.carrier = .driving d ∧ d.session = s := by
  unfold stance
  cases c.carrier <;> simp [Carrier.stance]

theorem Turn.finished {c c' : Connection} (t : Turn c c') (h : c.carrier = .finished) :
    c'.carrier = .finished := by
  cases t with
  | steady q =>
    rw [← stance_eq_finished, q.stance, stance_eq_finished]
    exact h
  | sought idle alive timeout => cases h.symm.trans idle
  | attempted seeking q => cases h.symm.trans seeking
  | rejected seeking before => cases h.symm.trans seeking
  | opened seeking uses after => cases h.symm.trans seeking
  | lost driving before => cases h.symm.trans driving
  | expired driving before => cases h.symm.trans driving
  | gaveUp seeking first before => cases h.symm.trans seeking
  | withdrew seeking first before after => cases h.symm.trans seeking
  | closedOut before after drained => exact stance_eq_finished.mp after.stance

theorem Rested.step {c c' : Connection} {who : Option Ticket} (h : Rested c) (m : Move c who c')
    (t : Turn c c') : Rested c' := by
  have seekingAway {s : Search} (seeking : c.carrier = .seeking s) :
      c'.pending = [] := by
    have away : ∀ s, c.stance ≠ .driving s := by simp [stance, seeking, Carrier.stance]
    exact m.pending_nil away (h.away away)
  cases t with
  | steady q =>
    refine ⟨fun away => ?_, fun finished => ?_⟩
    · rw [q.stance] at away
      exact m.pending_nil away (h.away away)
    · rw [← stance_eq_finished, q.stance, stance_eq_finished] at finished
      exact m.drained finished (h.finished finished)
  | sought idle alive timeout =>
    refine ⟨fun _ => ?_, fun finished => by cases finished⟩
    exact h.away (by simp [stance, idle, Carrier.stance])
  | @attempted s e _ seeking q =>
    refine ⟨fun _ => seekingAway seeking, fun finished => ?_⟩
    have same : c'.stance = .seeking s.resumes s.offer :=
      q.stance.trans (by rw [stance, record, seeking]; rfl)
    rw [← stance_eq_finished, same] at finished
    cases finished
  | @rejected s c₁ seeking before =>
    refine ⟨fun _ => seekingAway seeking, fun finished => ?_⟩
    have same : c₁.stance = .seeking s.resumes s.offer :=
      before.stance.trans (by rw [stance, seeking]; rfl)
    rw [carrier_transition, ← stance_eq_finished, same] at finished
    cases finished
  | @opened search s d _ seeking uses after =>
    refine ⟨fun _ => seekingAway seeking, fun finished => ?_⟩
    rw [← stance_eq_finished, after.stance] at finished
    cases finished
  | lost driving before =>
    exact ⟨fun _ => pending_sessionFailed _ _, fun finished => by cases finished⟩
  | expired driving before =>
    exact ⟨fun _ => pending_sessionFailed _ _, fun finished => by cases finished⟩
  | gaveUp seeking first before =>
    refine ⟨fun _ => seekingAway seeking, fun finished => ?_⟩
    rw [← stance_eq_finished, stance_connectFailed] at finished
    cases finished
  | withdrew seeking first before after =>
    refine ⟨fun _ => seekingAway seeking, fun finished => ?_⟩
    rw [← stance_eq_finished, after.stance] at finished
    cases finished
  | closedOut before after drained =>
    exact ⟨fun _ => drained.2.2, fun _ => ⟨drained.1, drained.2.1⟩⟩

theorem Reachable.rested {settings : Settings} {roster : Roster} {c : Connection}
    (h : Reachable settings roster c) : Rested c := by
  induction h with
  | start => exact ⟨fun _ => rfl, fun _ => ⟨rfl, rfl⟩⟩
  | step a _ hs ih => exact ih.step (move_of_step hs) (turn_of_step hs)

/-- No packet is left behind on a connection that is closed. -/
theorem Reachable.drained {settings : Settings} {roster : Roster} {c : Connection}
    (h : Reachable settings roster c) (closed : c.status = .closed) :
    c.outgoing = [] ∧ c.retry = [] ∧ c.pending = [] := by
  have finished := h.finished_iff.mp closed
  obtain ⟨ho, hr⟩ := h.rested.finished finished
  exact ⟨ho, hr, h.rested.away (by simp [stance, finished, Carrier.stance])⟩

end Connection
end ServiceDirectory
