import ServiceDirectory.Proofs.Connection.Phases

/-! The life of the sessions of a connection, without anything else: a small machine whose states
are what the carrier is about, the status and the session, and whose steps say which events they
bring about. Every step of a connection is a step of this machine. -/
namespace ServiceDirectory.Connection

def turns (c : Connection) : List Event := (c.history.filter Event.isTurn).reverse

structure Phase where
  stance : Stance
  status : ConnectionStatus
  id : Option SessionId

def phase (c : Connection) : Phase := ⟨c.stance, c.status, c.sessionId⟩

def moved (previous next : ConnectionStatus) : List Event :=
  if previous = next ∨ previous = .closed then [] else [.published (.status previous next)]

theorem moved_eq {previous next : ConnectionStatus} (h : previous ≠ next)
    (alive : previous ≠ .closed) : moved previous next = [.published (.status previous next)] := by
  rw [moved, if_neg (by simp [h, alive])]

/-- The steps in the life of sessions, each with the events that it brings about. -/
inductive Leap : Phase → List Event → Phase → Prop where
  | stay (p : Phase) : Leap p [] p
  | sought (status : ConnectionStatus) :
    Leap ⟨.free, status, none⟩ [] ⟨.seeking false none, status, none⟩
  | attempted (resumes : Bool) (offer : Option SessionId) (status : ConnectionStatus)
    (id : Option SessionId) (e : Endpoint) :
    Leap ⟨.seeking resumes offer, status, id⟩ [.attempted e offer]
      ⟨.seeking resumes offer, status, id⟩
  | rejected (resumes : Bool) (offer : Option SessionId) (status : ConnectionStatus)
    (id : Option SessionId) :
    Leap ⟨.seeking resumes offer, status, id⟩ (moved status .authFailed)
      ⟨.seeking resumes offer, .authFailed, id⟩
  | created (status : ConnectionStatus) (s : Session) (e : Option Endpoint) :
    Leap ⟨.seeking false none, status, none⟩ [.opened s, .published (.status status s.status),
      .published (.session .created s.id e)] ⟨.driving s, s.status, some s.id⟩
  | reopened (status : ConnectionStatus) (s : Session) (e : Option Endpoint) :
    Leap ⟨.seeking true none, status, none⟩ [.opened s, .published (.status status s.status),
      .published (.session .reopen s.id e)] ⟨.driving s, s.status, some s.id⟩
  | resumed (status : ConnectionStatus) (s : Session) :
    Leap ⟨.seeking true (some s.id), status, some s.id⟩
      [.opened s, .published (.status status s.status)] ⟨.driving s, s.status, some s.id⟩
  | replaced (status : ConnectionStatus) {old : SessionId} {s : Session} (other : old ≠ s.id)
    (e e' : Option Endpoint) :
    Leap ⟨.seeking true (some old), status, some old⟩ [.opened s,
      .published (.session .closed old e), .published (.status status s.status),
      .published (.session .reopen s.id e')] ⟨.driving s, s.status, some s.id⟩
  | lost (s : Session) {f : Failure} (kept : f ≠ .sessionExpired) :
    Leap ⟨.driving s, s.status, some s.id⟩ [.lost f, .published (.status s.status .notConnected)]
      ⟨.seeking true (some s.id), .notConnected, some s.id⟩
  | expired (s : Session) (e : Option Endpoint) {pushed : List Event}
    (cause : pushed = [] ∨ pushed = [.received .sessionExpired]) :
    Leap ⟨.driving s, s.status, some s.id⟩ (pushed ++ [.lost .sessionExpired,
      .published (.session .closed s.id e), .published (.status s.status .notConnected)])
      ⟨.seeking true none, .notConnected, none⟩
  | gaveUp (status : ConnectionStatus) :
    Leap ⟨.seeking false none, status, none⟩ (moved status .notConnected)
      ⟨.free, .notConnected, none⟩
  | withdrew (status : ConnectionStatus) :
    Leap ⟨.seeking false none, status, none⟩ [] ⟨.free, status, none⟩
  | closed (stance : Stance) {status : ConnectionStatus} (alive : status ≠ .closed)
    (id : SessionId) (e : Option Endpoint) :
    Leap ⟨stance, status, some id⟩
      [.published (.session .closed id e), .published (.status status .closed)]
      ⟨.finished, .closed, none⟩
  | shut (stance : Stance) (status : ConnectionStatus) :
    Leap ⟨stance, status, none⟩ (moved status .closed) ⟨.finished, .closed, none⟩

theorem Steady.turns {c c' : Connection} (q : Steady c c') : c'.turns = c.turns := by
  obtain ⟨es, he, hes⟩ := q.history
  rw [Connection.turns, he, filter_append_of_forall hes]
  rfl

theorem Steady.phase {c c' : Connection} (q : Steady c c') : c'.phase = c.phase := by
  rw [Connection.phase, q.stance, q.status, q.sessionId]
  rfl

theorem turns_record {c : Connection} {e : Event} (h : e.isTurn = true) :
    (c.record e).turns = c.turns ++ [e] := by
  simp [turns, record, h]

theorem turns_transition (c : Connection) (next : ConnectionStatus) :
    (c.transition next).turns = c.turns ++ moved c.status next := by
  unfold transition moved
  split
  · rw [List.append_nil]
  · exact turns_record rfl

theorem turns_publish {c : Connection} {d : Dispatch} (h : (Event.published d).isTurn = true) :
    (c.publish d).turns = c.turns ++ [.published d] :=
  turns_record h

theorem turns_sessionStarted (c : Connection) (s : Session) (search : Search) :
    (c.sessionStarted s search).turns = c.turns ++ .opened s ::
      match search.resumes, search.offer with
      | false, _ => moved c.status s.status ++
          [.published (.session .created s.id (some s.endpoint))]
      | true, none => moved c.status s.status ++
          [.published (.session .reopen s.id (some s.endpoint))]
      | true, some old =>
        if old = s.id then moved c.status s.status
        else .published (.session .closed old (some s.endpoint)) :: moved c.status s.status ++
          [.published (.session .reopen s.id (some s.endpoint))] := by
  have name : (if s.readOnly then ConnectionStatus.connectedReadonly else .connected) =
      s.status := rfl
  unfold sessionStarted
  simp only [name]
  generalize hb : record _ (.opened s) = b
  have turns : b.turns = c.turns ++ [.opened s] := by
    rw [← hb]
    exact turns_record rfl
  have status : b.status = c.status := by rw [← hb]; rfl
  cases search.resumes with
  | false =>
    simp only
    rw [turns_publish rfl, turns_transition, turns, status]
    simp
  | true =>
    cases search.offer with
    | none =>
      simp only
      rw [turns_publish rfl, turns_transition, turns, status]
      simp
    | some old =>
      simp only
      split
      · rw [turns_transition, turns, status]
        simp
      · have closed : (b.publish (.session .closed old (some s.endpoint))).status = c.status :=
          status
        rw [turns_publish rfl, turns_transition, turns_publish rfl, turns, closed]
        simp

theorem turns_endSession (c : Connection) :
    c.endSession.turns = c.turns ++
      c.sessionId.toList.map fun id => .published (.session .closed id c.endpoint) := by
  unfold endSession
  cases c.sessionId with
  | none => simp
  | some id => exact turns_record rfl

theorem turns_sessionLost (c : Connection) (expired : Bool) :
    (c.sessionLost expired).turns = c.turns ++ ((if expired then c.sessionId.toList else []).map
      fun id => .published (.session .closed id c.endpoint)) ++ moved c.status .notConnected := by
  unfold sessionLost
  simp only
  rw [turns_transition]
  cases expired
  · simp only [Bool.false_eq_true, if_false, List.map_nil, List.append_nil]
    rfl
  · simp only [if_true, status_endSession]
    exact congrArg (· ++ moved c.status .notConnected) c.turns_endSession

theorem turns_closeOut (c : Connection) :
    c.closeOut.turns = c.turns ++ (c.sessionId.toList.map fun id =>
      .published (.session .closed id c.endpoint)) ++ moved c.status .closed := by
  have closed : c.closeOut.turns = c.finishClosed.turns := c.steady_closeOut.turns
  rw [closed, finishClosed, turns_transition]
  simp only [status_endSession]
  exact congrArg (· ++ moved c.status .closed) c.turns_endSession

theorem turns_sessionFailed (c : Connection) (f : Failure) :
    (c.sessionFailed f).turns = c.turns ++ [.lost f] ++
      ((if f = .sessionExpired then c.sessionId.toList else []).map
        fun id => .published (.session .closed id c.endpoint)) ++ moved c.status .notConnected := by
  have q := Steady.overlooksPackets.failPending (c.record (.lost f)) f
  have lost := ((c.record (.lost f)).failPending f).turns_sessionLost (f = .sessionExpired)
  rw [q.turns, q.sessionId, q.endpoint, q.status, turns_record rfl] at lost
  simp only [decide_eq_true_eq] at lost
  exact lost

theorem turns_connectFailed (c : Connection) (f : Failure) :
    (c.connectFailed f).turns =
      c.turns ++ if c.status = .authFailed then [] else moved c.status .notConnected := by
  unfold connectFailed
  simp only
  rw [(steady_returnFirst _ _).turns]
  change (failOutgoing _ _).turns = _
  rw [(Steady.overlooksPackets.failOutgoing _ _).turns]
  split
  · rw [List.append_nil]
  · exact turns_transition _ _

def Leaps (c c' : Connection) : Prop :=
  ∃ es, c'.turns = c.turns ++ es ∧ Leap c.phase es c'.phase

theorem Leaps.of_eq {c c' : Connection} {p p' : Phase} {es : List Event} (leap : Leap p es p')
    (before : c.phase = p) (after : c'.phase = p') (turns : c'.turns = c.turns ++ es) :
    Leaps c c' := ⟨es, turns, before ▸ after ▸ leap⟩

theorem Leaps.steady {a b c d : Connection} (h : Leaps b c) (before : Steady a b)
    (after : Steady c d) : Leaps a d := by
  obtain ⟨es, turns, leap⟩ := h
  refine ⟨es, ?_, ?_⟩
  · rw [after.turns, turns, before.turns]
  · rw [← before.phase, after.phase]
    exact leap

theorem phase_seeking {c : Connection} {s : Search} (h : c.stance.suits c.status c.sessionId)
    (seeking : c.carrier = .seeking s) :
    c.phase = ⟨.seeking s.resumes s.offer, c.status, s.offer⟩ := by
  obtain ⟨-, id, -⟩ := suits_of_seeking h seeking
  rw [phase, stance, seeking, id]
  rfl

theorem phase_first {c : Connection} {s : Search} (h : c.stance.suits c.status c.sessionId)
    (seeking : c.carrier = .seeking s) (first : s.resumes = false) :
    c.phase = ⟨.seeking false none, c.status, none⟩ := by
  obtain ⟨-, -, offer⟩ := suits_of_seeking h seeking
  rw [phase_seeking h seeking, first, offer first]

theorem phase_driving {c : Connection} {d : Drive} (h : c.stance.suits c.status c.sessionId)
    (driving : c.carrier = .driving d) :
    c.phase = ⟨.driving d.session, d.session.status, some d.session.id⟩ := by
  obtain ⟨status, id⟩ := suits_of_driving h driving
  rw [phase, stance, driving, status, id]
  rfl

theorem leaps_opened {c : Connection} (h : c.stance.suits c.status c.sessionId) {s : Search}
    (seeking : c.carrier = .seeking s) (d : Drive) :
    Leaps c { c.sessionStarted d.session s with carrier := .driving d } := by
  obtain ⟨idle, -, -⟩ := suits_of_seeking h seeking
  have alive := ConnectionStatus.ne_closed_of_isIdle idle
  have other := ConnectionStatus.ne_status_of_isIdle idle d.session
  have before := phase_seeking h seeking
  have after : ({ c.sessionStarted d.session s with carrier := .driving d } : Connection).phase =
      ⟨.driving d.session, d.session.status, some d.session.id⟩ := by
    rw [phase]
    simp only [status_sessionStarted alive, sessionId_sessionStarted]
    rfl
  have turned := moved_eq other alive
  have turns := c.turns_sessionStarted d.session s
  cases resumes : s.resumes with
  | false =>
    rw [resumes, turned] at turns
    exact .of_eq (.created c.status d.session _) (phase_first h seeking resumes) after turns
  | true =>
    cases offer : s.offer with
    | none =>
      rw [resumes, offer] at before turns
      rw [turned] at turns
      exact .of_eq (.reopened c.status d.session _) before after turns
    | some old =>
      rw [resumes, offer] at before turns
      rw [turned] at turns
      by_cases same : old = d.session.id
      · subst same
        simp only [if_true] at turns
        exact .of_eq (.resumed c.status d.session) before after turns
      · simp only [if_neg same] at turns
        exact .of_eq (.replaced c.status same _ _) before after turns

theorem leaps_sessionFailed {c : Connection} (h : c.stance.suits c.status c.sessionId) {d : Drive}
    (driving : c.carrier = .driving d) {pushed : List Event} {f : Failure} {b : Connection}
    (same : b.phase = c.phase) (turns : b.turns = c.turns ++ pushed)
    (cause : pushed = [] ∨ pushed = [.received .sessionExpired] ∧ f = .sessionExpired) :
    Leaps c (b.sessionFailed f) := by
  have before := phase_driving h driving
  obtain ⟨-, status, id⟩ := Phase.mk.inj (same.trans before)
  have other := d.session.status_ne_notConnected
  have alive := d.session.status_ne_closed
  have after : (b.sessionFailed f).phase =
      ⟨.seeking true (if f = .sessionExpired then none else some d.session.id), .notConnected,
        if f = .sessionExpired then none else some d.session.id⟩ := by
    rw [phase, stance_sessionFailed, sessionId_sessionFailed, id, status_sessionFailed]
    rw [status]
    exact alive
  have told := b.turns_sessionFailed f
  rw [turns, status, id, moved_eq other alive] at told
  by_cases expired : f = .sessionExpired
  · subst expired
    refine .of_eq (.expired d.session b.endpoint (cause.imp_right (·.1))) before after ?_
    rw [told]
    simp
  · obtain rfl : pushed = [] := cause.resolve_right fun hc => expired hc.2
    simp only [if_neg expired] at told after
    refine .of_eq (.lost d.session expired) before after ?_
    rw [told]
    simp

theorem leaps_connectFailed {c : Connection} (alive : c.status ≠ .closed)
    (before : c.phase = ⟨.seeking false none, c.status, none⟩) (f : Failure) :
    Leaps c (c.connectFailed f) := by
  have id : c.sessionId = none := (Phase.mk.inj before).2.2
  have status := status_connectFailed alive f
  have told := c.turns_connectFailed f
  have after : (c.connectFailed f).phase = ⟨.free, (c.connectFailed f).status, none⟩ := by
    rw [phase, stance_connectFailed, sessionId_connectFailed, id]
  by_cases rejected : c.status = .authFailed
  · rw [if_pos rejected] at told status
    rw [status, ← rejected] at after
    exact .of_eq (.withdrew c.status) before after told
  · rw [if_neg rejected] at told status
    rw [status] at after
    exact .of_eq (.gaveUp c.status) before after told

theorem leaps_closeOut {c : Connection} (h : c.stance.suits c.status c.sessionId) :
    Leaps c c.closeOut := by
  have after : c.closeOut.phase = ⟨.finished, .closed, none⟩ := by
    rw [phase, stance, c.status_closeOut, c.sessionId_closeOut, c.carrier_closeOut]
    rfl
  have told := c.turns_closeOut
  cases id : c.sessionId with
  | none =>
    rw [id] at told
    refine .of_eq (.shut c.stance c.status) (by rw [phase, id]) after ?_
    rw [told]
    simp
  | some i =>
    have alive := ne_closed_of_sessionId h id
    rw [id] at told
    refine .of_eq (.closed c.stance alive i c.endpoint) (by rw [phase, id]) after ?_
    rw [told]
    rw [moved_eq alive alive]
    simp

theorem Turn.leaps {c c' : Connection} (t : Turn c c') (h : c.stance.suits c.status c.sessionId) :
    Leaps c c' := by
  cases t with
  | steady q => exact ⟨[], by rw [q.turns, List.append_nil], q.phase ▸ .stay _⟩
  | sought idle alive timeout =>
    rw [stance, idle] at h
    refine .of_eq (.sought c.status) ?_ ?_ (List.append_nil _).symm
    · rw [phase, stance, idle, h.2]
      rfl
    · rw [phase, h.2]
      rfl
  | @attempted s e _ seeking q =>
    have one : Leaps c (c.record (.attempted e s.offer)) :=
      .of_eq (.attempted _ _ _ _ e) (phase_seeking h seeking)
        (phase_seeking h seeking) (turns_record rfl)
    exact one.steady (.refl c) q
  | @rejected s c₁ seeking before =>
    have hb := before.suits h
    have same : c₁.phase = _ := before.phase.trans (phase_seeking h seeking)
    have alive : c₁.status ≠ .closed := by
      rw [before.status]
      exact ConnectionStatus.ne_closed_of_isIdle (suits_of_seeking h seeking).1
    have one : Leaps c₁ (c₁.transition .authFailed) := by
      refine .of_eq (.rejected s.resumes s.offer c₁.status s.offer) ?_ ?_ (c₁.turns_transition _)
      · rw [same, before.status]
      · rw [phase, stance, carrier_transition, sessionId_transition, status_transition,
          if_neg alive]
        obtain ⟨hs, -, hi⟩ := Phase.mk.inj same
        rw [stance] at hs
        rw [hs, hi]
    exact one.steady before (.refl _)
  | @opened search s d _ seeking uses after =>
    subst uses
    exact (leaps_opened h seeking d).steady (.refl c) after
  | @lost d f c₁ driving before =>
    refine leaps_sessionFailed h driving before.phase ?_ (.inl rfl)
    rw [before.turns, List.append_nil]
  | @expired d c₁ driving before =>
    refine leaps_sessionFailed h driving (b := c₁.record _) before.phase ?_ (.inr ⟨rfl, rfl⟩)
    rw [turns_record rfl, before.turns]
  | @gaveUp s f c₁ seeking first before =>
    have one : Leaps c₁ (c₁.connectFailed f) := by
      refine leaps_connectFailed ?_ ?_ f
      · rw [before.status]
        exact ConnectionStatus.ne_closed_of_isIdle (suits_of_seeking h seeking).1
      · rw [before.phase, before.status]
        exact phase_first h seeking first
    exact one.steady before (.refl _)
  | @withdrew s c₁ _ seeking first before after =>
    have one : Leaps c₁ { c₁ with carrier := .free } := by
      refine .of_eq (.withdrew c₁.status) ?_ ?_ (List.append_nil _).symm
      · rw [before.phase, before.status]
        exact phase_first h seeking first
      · have id := (Phase.mk.inj (before.phase.trans (phase_first h seeking first))).2.2
        rw [phase, id]
        rfl
    exact one.steady before after
  | @closedOut c₁ _ before after drained =>
    exact (leaps_closeOut (before.suits h)).steady before after

/-- What the life of sessions can have brought about, and the phase that it has come to. -/
inductive Life : List Event → Phase → Prop where
  | start : Life [] ⟨.free, .new, none⟩
  | leap {es new : List Event} {p p' : Phase} (life : Life es p) (next : Leap p new p') :
    Life (es ++ new) p'

/-- A run of a connection is a run of the machine. -/
theorem Reachable.life {settings : Settings} {roster : Roster} {c : Connection}
    (h : Reachable settings roster c) : Life c.turns c.phase := by
  induction h with
  | start => exact .start
  | step a hr hs ih =>
    obtain ⟨es, turns, next⟩ := (turn_of_step hs).leaps hr.suits
    rw [turns]
    exact ih.leap next

theorem Life.suits {es : List Event} {p : Phase} (life : Life es p) :
    p.stance.suits p.status p.id := by
  induction life with
  | start => exact ⟨rfl, rfl⟩
  | leap life next ih =>
    cases next with
    | stay p => exact ih
    | sought status => exact ⟨ih.1, rfl, fun _ => rfl⟩
    | attempted resumes offer status id e => exact ih
    | rejected resumes offer status id => exact ⟨rfl, ih.2⟩
    | created status s e => exact ⟨rfl, rfl⟩
    | reopened status s e => exact ⟨rfl, rfl⟩
    | resumed status s => exact ⟨rfl, rfl⟩
    | replaced status other e e' => exact ⟨rfl, rfl⟩
    | lost s kept => exact ⟨rfl, rfl, fun hr => by cases hr⟩
    | expired s e cause => exact ⟨rfl, rfl, fun _ => rfl⟩
    | gaveUp status => exact ⟨rfl, rfl⟩
    | withdrew status => exact ⟨ih.1, rfl⟩
    | closed stance alive id e => exact ⟨rfl, rfl⟩
    | shut stance status => exact ⟨rfl, rfl⟩

end ServiceDirectory.Connection
