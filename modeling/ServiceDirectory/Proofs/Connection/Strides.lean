import ServiceDirectory.Proofs.Connection.Turns

/-! What a step of a connection does to its search for a session. Most steps keep apart from it:
they leave alone all that a search reads, and nothing that belongs to a search happens in them. The
others are strides, listed like the moves of packets and the turns of sessions. -/
namespace ServiceDirectory

theorem Session.endpoint_ofAnswer {e : Endpoint} {settings : Settings}
    {r : Except Failure ServerFrame} {session : Session}
    (h : r >>= Session.ofAnswer e settings = .ok session) : session.endpoint = e := by
  cases r with
  | error f => cases h
  | ok frame =>
    cases frame with
    | connected r =>
      obtain rfl := Except.ok.inj h
      rfl
    | _ => cases h

namespace Search

def facing? (s : Search) : Option Endpoint :=
  match s.phase with
  | .handshake e _ => some e
  | _ => none

end Search

namespace Connection

/-- What the carrier pursues. A search is told in full, a session without its clocks. -/
inductive Pursuit where
  | free
  | seeking (s : Search)
  | driving (s : Session)
  | finished
  deriving DecidableEq

def Carrier.pursuit : Carrier → Pursuit
  | .free => .free
  | .seeking s => .seeking s
  | .driving d => .driving d.session
  | .finished => .finished

def pursuit (c : Connection) : Pursuit := c.carrier.pursuit

theorem pursuit_eq_seeking {c : Connection} {s : Search} :
    c.pursuit = .seeking s ↔ c.carrier = .seeking s := by
  unfold pursuit
  cases c.carrier <;> simp [Carrier.pursuit]

theorem pursuit_eq_driving {c : Connection} {s : Session} :
    c.pursuit = .driving s ↔ ∃ d, c.carrier = .driving d ∧ d.session = s := by
  unfold pursuit
  cases c.carrier <;> simp [Carrier.pursuit]

def Event.isSearch : Event → Bool
  | .attempted _ _ | .attemptFailed _ _ | .opened _ => true
  | _ => false

def Action.isSearch : Action → Bool
  | .seek | .answer _ | .timeOut => true
  | _ => false

/-- All that a search reads stays, and nothing happened that belongs to one. -/
structure Apart (c c' : Connection) : Prop where
  settings : c'.settings = c.settings
  roster : c'.roster = c.roster
  rejected : c'.rejected = c.rejected
  shutdown : c'.shutdown = c.shutdown
  pursuit : c'.pursuit = c.pursuit
  history : ∃ es, c'.history = es ++ c.history ∧ ∀ e ∈ es, e.isSearch = false

namespace Apart

theorem refl (c : Connection) : Apart c c :=
  ⟨rfl, rfl, rfl, rfl, rfl, [], rfl, by simp⟩

theorem trans {a b c : Connection} (h : Apart a b) (k : Apart b c) : Apart a c := by
  obtain ⟨es, he, hes⟩ := h.history
  obtain ⟨fs, hf, hfs⟩ := k.history
  refine ⟨k.settings.trans h.settings, k.roster.trans h.roster, k.rejected.trans h.rejected,
    k.shutdown.trans h.shutdown, k.pursuit.trans h.pursuit, fs ++ es, ?_, ?_⟩
  · rw [hf, he, List.append_assoc]
  · intro e hm
    rcases List.mem_append.mp hm with hm | hm
    · exact hfs e hm
    · exact hes e hm

theorem view {β : Type} {g : Event → Option β} {c c' : Connection} (h : Apart c c')
    (hg : ∀ e, e.isSearch = false → g e = none) :
    c'.history.filterMap g = c.history.filterMap g := by
  obtain ⟨es, he, hes⟩ := h.history
  rw [he]
  exact filterMap_append_of_forall (fun e hm => hg e (hes e hm)) c.history

end Apart

theorem apart_fields (c : Connection) {now : Nat} {status : ConnectionStatus}
    {sessionId : Option SessionId} {endpoint : Option Endpoint} {sessionTimeout : Option Nat}
    {packets : List Packet} {outgoing retry : List PacketId} {pending : List (Xid × PacketId)}
    {dispatches : List Dispatch} {outstanding : Nat} {nextXid : Xid} {holding : Holding}
    {senders : List Sender} {calls : List (Ticket × Call)} {listeners : List Listener}
    {nextListener : ListenerId} {nextTicket : Ticket} {latency : Option LatencyRegistry} :
    Apart c { c with
      now, status, sessionId, endpoint, sessionTimeout, packets, outgoing, retry, pending
      dispatches, outstanding, nextXid, holding, senders, calls, listeners, nextListener
      nextTicket, latency } :=
  ⟨rfl, rfl, rfl, rfl, rfl, [], rfl, by simp⟩

theorem apart_record (c : Connection) {e : Event} (h : e.isSearch = false) :
    Apart c (c.record e) :=
  ⟨rfl, rfl, rfl, rfl, rfl, [e], rfl, by simpa using h⟩

theorem apart_publish (c : Connection) (d : Dispatch) : Apart c (c.publish d) :=
  c.apart_fields.trans (apart_record _ rfl)

theorem apart_carrier (c : Connection) {carrier : Carrier}
    (h : carrier.pursuit = c.carrier.pursuit) : Apart c { c with carrier } :=
  ⟨rfl, rfl, rfl, rfl, h, [], rfl, by simp⟩

theorem Apart.turns {c c' : Connection} (h : Apart c c') {carrier carrier' : Carrier}
    (same : carrier'.pursuit = carrier.pursuit) :
    Apart { c with carrier } { c' with carrier := carrier' } :=
  ⟨h.settings, h.roster, h.rejected, h.shutdown, same, h.history⟩

theorem Apart.overlooksCalls : OverlooksCalls Apart where
  refl := refl
  returned c _ _ _ := c.apart_fields.trans (apart_record _ rfl)

theorem Apart.overlooksPackets : OverlooksPackets Apart where
  refl := refl
  trans := trans
  fields c := c.apart_fields
  completes c _ := c.apart_publish _

theorem Apart.overlooksSessions : OverlooksSessions Apart where
  refl := refl
  trans := trans
  fields c := c.apart_fields
  tells c _ _ := c.apart_publish _

theorem apart_returnFirst (c : Connection) (r : Except Failure Unit) :
    Apart c (c.returnFirst r) :=
  Apart.overlooksCalls.returnFirst c r

theorem apart_closeOut (c : Connection) : Apart { c with carrier := .finished } c.closeOut := by
  obtain ⟨b, closed, same⟩ := Apart.overlooksSessions.closeOut Apart.overlooksPackets c
  rw [same]
  exact closed.turns rfl

theorem apart_sessionFailed {c c₁ : Connection} (before : Apart c c₁) (f : Failure) : ∃ offer,
    Apart { c with carrier := .seeking (.resuming c.settings offer) } (c₁.sessionFailed f) := by
  obtain ⟨b, offer, lost, same⟩ :=
    Apart.overlooksSessions.sessionFailed Apart.overlooksPackets c₁ f
  have noted := (before.trans (apart_record _ rfl)).trans lost
  rw [same]
  exact ⟨offer, noted.turns (by rw [noted.settings])⟩

theorem apart_openSession (c : Connection) (s : Search) (session : Session) :
    Apart ({ c with
      roster := c.roster.markConnected session.endpoint
      carrier := .driving { session, lastFrame := c.now, lastPong := c.now, lastPing := c.now }
      }.record (.opened session)) (c.openSession s session) := by
  obtain ⟨b, started, after⟩ :=
    Apart.overlooksSessions.openSession Apart.overlooksCalls c s session
  refine Apart.trans ?_ after
  exact started.turns rfl

theorem apart_connectFailed (c : Connection) (f : Failure) :
    Apart { c with carrier := .free } (c.connectFailed f) := by
  obtain ⟨b, failed, same⟩ := Apart.overlooksSessions.connectFailed Apart.overlooksPackets c f
  rw [same]
  exact (failed.turns rfl).trans (apart_returnFirst _ _)

def aftermath (s : Search) : Carrier := if s.resumes then .finished else .free

theorem aftermath_ne_seeking (s s' : Search) : aftermath s ≠ .seeking s' := by
  unfold aftermath
  split <;> simp

theorem aftermath_ne_driving (s : Search) (d : Drive) : aftermath s ≠ .driving d := by
  unfold aftermath
  split <;> simp

theorem pursuit_eq_aftermath {c : Connection} {s : Search} :
    c.pursuit = (aftermath s).pursuit ↔ c.carrier = aftermath s := by
  unfold pursuit aftermath
  cases c.carrier <;> split <;> simp [Carrier.pursuit]

theorem apart_searchFailed (c : Connection) (s : Search) (f : Failure) :
    Apart { c with carrier := aftermath s } (c.searchFailed s f) := by
  unfold searchFailed aftermath
  split
  · exact c.apart_closeOut
  · exact c.apart_connectFailed f

theorem apart_searchStopped (c : Connection) (s : Search) :
    Apart { c with carrier := aftermath s } (c.searchStopped s) := by
  unfold searchStopped aftermath
  split
  · exact c.apart_closeOut
  · exact apart_returnFirst _ _

theorem apart_attemptFailed (c : Connection) (s : Search) (e : Endpoint) (f : Failure) :
    Apart ({ c with
      carrier := .seeking (s.giveUp f)
      rejected := if f.isAuth then e :: c.rejected else c.rejected
      }.record (.attemptFailed e f)) (c.attemptFailed s e f) :=
  Apart.overlooksSessions.attemptFailed c s e f

/-- All that a step can do to a search. -/
inductive Stride (c : Connection) : Action → Connection → Prop where
  | apart {a c'} (other : a.isSearch = false) (q : Apart c c') : Stride c a c'
  | replaced {endpoints roster} (update : c.roster.update endpoints = .ok roster) :
    Stride c (.updateRoster endpoints) { c with roster }
  | asked {a c'} (cause : a = .callClose ∨ a = .drop) (q : Apart { c with shutdown := true } c') :
    Stride c a c'
  | sought (idle : c.carrier = .free) (timeout : Nat) :
    Stride c .enter { c with carrier := .seeking (.initial c.now timeout) }
  | lost {a d offer c'} (other : a.isSearch = false) (driving : c.carrier = .driving d)
    (q : Apart { c with carrier := .seeking (.resuming c.settings offer) } c') : Stride c a c'
  | ended {a shutdown c'} (other : a.isSearch = false) (away : ∀ s, c.carrier ≠ .seeking s)
    (q : Apart { c with shutdown, carrier := .finished } c')
    (still : c.shutdown = true → shutdown = true) : Stride c a c'
  | begun {s s'} (seeking : c.carrier = .seeking s) (ready : s.phase = .ready)
    (begins : s.begin c.settings c.now c.shutdown = .continues s') :
    Stride c .seek { c with carrier := .seeking s' }
  | spent {s f} (seeking : c.carrier = .seeking s) (ready : s.phase = .ready)
    (begins : s.begin c.settings c.now c.shutdown = .failed f) :
    Stride c .seek (c.searchFailed s f)
  | waited {s stop} (seeking : c.carrier = .seeking s) (pausing : s.phase = .pausing stop)
    (past : stop ≤ c.now) :
    Stride c .seek { c with carrier := .seeking { s with phase := .choosing } }
  | counted {s} (seeking : c.carrier = .seeking s) (choosing : s.phase = .choosing) :
    Stride c .seek { c with carrier := .seeking { s with phase := .drawing c.roster.size } }
  | passedOver {s left} (seeking : c.carrier = .seeking s) (drawing : s.phase = .drawing (left + 1))
    (refused : c.roster.peek ∈ c.rejected) :
    Stride c .seek { c with
      roster := c.roster.advance
      carrier := .seeking { s with phase := .drawing left } }
  | chose {s left} (seeking : c.carrier = .seeking s) (drawing : s.phase = .drawing (left + 1))
    (accepted : c.roster.peek ∉ c.rejected) :
    Stride c .seek ({ c with
      roster := c.roster.advance
      carrier := .seeking (s.face c.roster.peek c.now)
      }.record (.attempted c.roster.peek s.offer))
  | deserted {s} (seeking : c.carrier = .seeking s) (none : s.phase = .drawing 0) :
    Stride c .seek (c.searchFailed s s.exhausted)
  | opened {s e stop r session} (seeking : c.carrier = .seeking s)
    (shakes : s.phase = .handshake e stop)
    (accepts : r >>= Session.ofAnswer e c.settings = .ok session) :
    Stride c (.answer r) (c.openSession s session)
  | failed {s e stop r f} (seeking : c.carrier = .seeking s) (shakes : s.phase = .handshake e stop)
    (fails : r >>= Session.ofAnswer e c.settings = .error f) :
    Stride c (.answer r) (c.attemptFailed s e f)
  | timedOut {s e stop} (seeking : c.carrier = .seeking s) (shakes : s.phase = .handshake e stop)
    (past : stop ≤ c.now) : Stride c .timeOut (c.attemptFailed s e (.connectTimeout e s.timeoutMs))
  | stopped {a s} (stops : a = .seek ∨ a = .stop) (seeking : c.carrier = .seeking s)
    (asked : c.shutdown = true) (chosen : s.isChoosing = false) : Stride c a (c.searchStopped s)

/-- How a search has come about that is under way after a step. Only where it stands before an
attempt does it need to have one left. -/
inductive Emerges (c : Connection) : Action → Search → Prop where
  | kept {a s} (before : c.carrier = .seeking s) : Emerges c a s
  | sought {s} (idle : c.carrier = .free) (ready : s.phase = .ready) : Emerges c .enter s
  | lost {a d s} (driving : c.carrier = .driving d) (ready : s.phase = .ready)
    (resumes : s.resumes = true) : Emerges c a s
  | wentOn {a s s'} (before : c.carrier = .seeking s) (resumes : s'.resumes = s.resumes)
    (attempt : s'.attempt = s.attempt)
    (left : s.phase = .ready → s.attempt < c.settings.retry.totalAttempts) : Emerges c a s'
  | gaveUp {a s s'} (before : c.carrier = .seeking s) (resumes : s'.resumes = s.resumes)
    (ready : s'.phase = .ready) : Emerges c a s'

theorem Stride.emerges {c c' : Connection} {a : Action} (stride : Stride c a c') {s' : Search}
    (seeking : c'.carrier = .seeking s') : Emerges c a s' := by
  have apart {b : Connection} (q : Apart b c') : b.carrier = .seeking s' :=
    pursuit_eq_seeking.mp (q.pursuit.symm.trans (pursuit_eq_seeking.mpr seeking))
  cases stride with
  | apart other q => exact .kept (apart q)
  | replaced update => exact .kept seeking
  | asked cause q =>
    have before := apart q
    exact .kept before
  | sought idle timeout =>
    obtain rfl := Carrier.seeking.inj seeking
    exact .sought idle rfl
  | lost other driving q =>
    obtain rfl := Carrier.seeking.inj (apart q)
    exact .lost driving rfl rfl
  | ended other away q => cases apart q
  | begun before ready begins =>
    obtain rfl := Carrier.seeking.inj seeking
    obtain ⟨left, ⟨-, rfl⟩ | ⟨-, stop, rfl⟩⟩ := Search.continues_of_begin begins
    · exact .wentOn before rfl rfl fun _ => left
    · exact .wentOn before rfl rfl fun _ => left
  | waited before pausing past =>
    obtain rfl := Carrier.seeking.inj seeking
    exact .wentOn before rfl rfl fun ready => by cases pausing.symm.trans ready
  | counted before choosing =>
    obtain rfl := Carrier.seeking.inj seeking
    exact .wentOn before rfl rfl fun ready => by cases choosing.symm.trans ready
  | passedOver before drawing | chose before drawing =>
    obtain rfl := Carrier.seeking.inj seeking
    exact .wentOn before rfl rfl fun ready => by cases drawing.symm.trans ready
  | spent | deserted => exact absurd (apart (apart_searchFailed _ _ _)) (aftermath_ne_seeking _ s')
  | opened before shakes accepts => cases apart (apart_openSession _ _ _)
  | failed before | timedOut before =>
    obtain rfl := Carrier.seeking.inj (apart (apart_attemptFailed _ _ _ _))
    exact .gaveUp before rfl rfl
  | stopped => exact absurd (apart (apart_searchStopped _ _)) (aftermath_ne_seeking _ s')

theorem SearchStep.stride {c c' : Connection} {s : Search} {a : Action}
    (seeking : c.carrier = .seeking s) (m : SearchStep c s a c') : Stride c a c' := by
  cases m with
  | begun ready begins => exact .begun seeking ready begins
  | spent ready begins => exact .spent seeking ready begins
  | waited pausing past => exact .waited seeking pausing past
  | counted choosing => exact .counted seeking choosing
  | passedOver drawing refused => exact .passedOver seeking drawing refused
  | chose drawing accepted => exact .chose seeking drawing accepted
  | deserted none => exact .deserted seeking none
  | opened shakes accepts => exact .opened seeking shakes accepts
  | failed shakes fails => exact .failed seeking shakes fails
  | timedOut shakes past => exact .timedOut seeking shakes past
  | stopped stops asked chosen => exact .stopped stops seeking asked chosen

theorem stride_sessionFailed {c c₁ : Connection} {d : Drive} (driving : c.carrier = .driving d)
    (before : Apart c c₁) {a : Action} (other : a.isSearch = false) (f : Failure) :
    Stride c a (c₁.sessionFailed f) := by
  obtain ⟨offer, q⟩ := apart_sessionFailed before f
  exact .lost other driving q

theorem WriteStep.stride {c c₁ c' : Connection} {d : Drive} {id : PacketId} {p : Packet}
    {w : Writing} (driving : c.carrier = .driving d) (before : Apart c c₁)
    (m : WriteStep c₁ d id p w c') : Stride c (.write w) c' := by
  have idle {c₂ : Connection} {writing : Bool} (h : Apart c c₂) :
      Apart c { c₂ with carrier := .driving { d with writing } } := by
    refine h.trans (c₂.apart_carrier ?_)
    have same : c₂.carrier.pursuit = c.carrier.pursuit := h.pursuit
    rw [same, driving]
    rfl
  cases m with
  | skipped => exact .apart rfl (idle before)
  | tooLarge => exact .apart rfl (idle (before.trans (Apart.overlooksPackets.complete _ _ _)))
  | written => exact .apart rfl (idle (before.trans ((apart_fields _).trans (apart_record _ rfl))))
  | stalled =>
    have put : Apart c { c₁ with retry := id :: c₁.retry } := before.trans c₁.apart_fields
    exact .apart rfl (idle put)
  | broken => exact stride_sessionFailed driving (before.trans (apart_fields _)) rfl _

theorem stride_handle {c c₁ : Connection} {d d' : Drive} (driving : c.carrier = .driving d)
    (same : d'.session = d.session) (before : Apart c c₁) {a : Action} (other : a.isSearch = false)
    (f : ServerFrame) : Stride c a (c₁.handle d' f) := by
  cases f with
  | response r => exact .apart other (before.trans (Apart.overlooksPackets.respond _ r))
  | pong =>
    refine .apart other (before.trans (apart_carrier _ ?_))
    have kept : c₁.carrier.pursuit = c.carrier.pursuit := before.pursuit
    rw [kept, driving]
    exact congrArg Pursuit.driving same
  | notification n => exact .apart other (before.trans (apart_publish _ _))
  | sessionExpired => exact stride_sessionFailed driving before other _
  | connected r => exact .apart other before
  | authFailed reason => exact .apart other before

theorem SessionStep.stride {c c' : Connection} {d : Drive} {a : Action}
    (driving : c.carrier = .driving d) (m : SessionStep c d a c') : Stride c a c' := by
  have heard : Apart c { c with carrier := .driving { d with lastFrame := c.now } } :=
    c.apart_carrier (by rw [driving]; rfl)
  have pinged : Apart c { c with carrier := .driving { d with lastPing := c.now } } :=
    c.apart_carrier (by rw [driving]; rfl)
  cases m with
  | heard ready f =>
    refine stride_handle driving ?_ (heard.trans (apart_record _ rfl)) rfl f
    rfl
  | cut | expired | silent => exact stride_sessionFailed driving (.refl c) rfl _
  | pinged => exact .apart rfl (pinged.trans (apart_record _ rfl))
  | unpinged => exact stride_sessionFailed driving pinged rfl _
  | hungUp asked whole told =>
    have noted : Apart c (c.record (.ended told)) := c.apart_record rfl
    exact .ended rfl (by simp [driving]) ((noted.turns rfl).trans (apart_closeOut _)) id

theorem CallStep.stride {c c' : Connection} {a : Action} (m : CallStep c a c') :
    Stride c a c' := by
  have gone : Apart { c with shutdown := true } { c with shutdown := true, holding := .gone } :=
    apart_fields _
  cases m with
  | sought row alive free => exact .sought free _
  | turnedAway => exact .apart rfl (c.apart_returnFirst _)
  | closed row idle =>
    exact .ended rfl idle.1 (c.apart_closeOut.trans (apart_returnFirst _ _)) id
  | left => exact .asked (.inr rfl) gone
  | gone deserted idle =>
    exact .ended rfl idle.1 ((gone.turns rfl).trans (apart_closeOut _)) fun _ => rfl

theorem SendMove.apart {c c' : Connection} {t : Ticket} (m : SendMove c t c') : Apart c c' := by
  cases m with
  | begun op request callback => exact c.apart_fields
  | numbered split stage => exact c.apart_fields
  | _ => exact c.apart_fields.trans (apart_record _ rfl)

theorem DeliverStep.apart {c c' : Connection} (m : DeliverStep c c') : Apart c c' := by
  cases m with
  | ran =>
    exact (c.apart_fields.trans (apart_record _ rfl)).trans (Apart.overlooksPackets.invoke _ _)
  | told => exact c.apart_fields.trans (apart_record _ rfl)

theorem stride_updateRoster (c : Connection) (endpoints : List Endpoint) :
    Stride c (.updateRoster endpoints) (c.updateRoster endpoints).2 := by
  unfold updateRoster
  cases update : c.roster.update endpoints with
  | ok roster => exact .replaced update
  | error f => exact .apart rfl (.refl c)

theorem isSearch_of_actor {c : Connection} {a : Action} {t : Ticket} (h : c.actor a = some t) :
    a.isSearch = false := by
  cases a <;> first | rfl | cases h

/-- Every step keeps apart from the search or is one of the strides. -/
theorem stride_of_step {c c' : Connection} {a : Action} (h : c.step a = some c') :
    Stride c a c' := by
  cases stepped_of_step h with
  | passed | listened | unlistened | letGo | called => exact .apart rfl c.apart_fields
  | listed endpoints => exact c.stride_updateRoster endpoints
  | asked => exact .asked (.inl rfl) (apart_fields _)
  | sent actor m => exact .apart (isSearch_of_actor actor) m.apart
  | call m => exact m.stride
  | searched seeking m => exact m.stride seeking
  | wrote driving takes packet m => exact m.stride driving (Apart.overlooksPackets.takes takes)
  | used driving m => exact m.stride driving
  | delivered m => exact .apart rfl m.apart

theorem step_seek (c : Connection) : c.step .seek = c.seek := rfl

theorem exists_seek {c : Connection} {s : Search} (seeking : c.carrier = .seeking s)
    (rests : s.facing? = none) (past : ∀ stop, s.phase = .pausing stop → stop ≤ c.now) :
    ∃ c', c.step .seek = some c' := by
  rw [step_seek]
  cases phase : s.phase with
  | ready | choosing =>
    simp only [seek, seeking, phase]
    exact ⟨_, rfl⟩
  | drawing left =>
    cases left <;> simp only [seek, seeking, phase] <;> exact ⟨_, rfl⟩
  | pausing stop =>
    simp only [seek, seeking, phase, if_pos (past stop phase)]
    exact ⟨_, rfl⟩
  | handshake e stop =>
    rw [Search.facing?, phase] at rests
    cases rests

/-! The choice of an endpoint, step by step. -/

section

variable {c : Connection} {s : Search} (seeking : c.carrier = .seeking s)
include seeking

theorem step_seek_of_choosing (choosing : s.phase = .choosing) :
    c.step .seek =
      some { c with carrier := .seeking { s with phase := .drawing c.roster.size } } := by
  rw [step_seek, seek, seeking]
  simp only [choosing]

theorem step_seek_of_none (none : s.phase = .drawing 0) :
    c.step .seek = some (c.searchFailed s s.exhausted) := by
  rw [step_seek, seek, seeking]
  simp only [none]

theorem step_seek_of_drawing {left : Nat} (drawing : s.phase = .drawing (left + 1)) :
    c.step .seek = some (c.draw s left) := by
  rw [step_seek, seek, seeking]
  simp only [drawing]

end

end Connection
end ServiceDirectory
