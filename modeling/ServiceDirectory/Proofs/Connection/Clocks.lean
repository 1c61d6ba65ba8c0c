import ServiceDirectory.Proofs.Connection.Dispatching

/-! The clocks of a session in use. A step moves time on, sets a clock or ends the session; all
others leave the clocks alone. -/
namespace ServiceDirectory.Connection

def Event.isBeat : Event → Bool
  | .pinged | .received _ | .lost _ => true
  | _ => false

/-- Neither time nor what the carrier does has changed, and nothing happened that has to do with
clocks. -/
structure Calm (c c' : Connection) : Prop where
  settings : c'.settings = c.settings
  now : c'.now = c.now
  carrier : c'.carrier = c.carrier
  log : ∃ new, c'.log = c.log ++ new ∧ ∀ e ∈ new, e.isBeat = false

namespace Calm

theorem refl (c : Connection) : Calm c c :=
  ⟨rfl, rfl, rfl, [], (List.append_nil _).symm, by simp⟩

theorem trans {a b c : Connection} (h : Calm a b) (k : Calm b c) : Calm a c := by
  obtain ⟨new, log, calm⟩ := h.log
  obtain ⟨new', log', calm'⟩ := k.log
  refine ⟨k.settings.trans h.settings, k.now.trans h.now, k.carrier.trans h.carrier, new ++ new',
    ?_, fun e he => (List.mem_append.mp he).elim (calm e) (calm' e)⟩
  rw [log', log, List.append_assoc]

theorem turns {c c' : Connection} (h : Calm c c') (carrier : Carrier) :
    Calm { c with carrier } { c' with carrier } :=
  ⟨h.settings, h.now, rfl, h.log⟩

end Calm

theorem calm_fields (c : Connection) {roster : Roster} {rejected : List Endpoint}
    {status : ConnectionStatus} {sessionId : Option SessionId} {endpoint : Option Endpoint}
    {sessionTimeout : Option Nat} {packets : List Packet} {outgoing retry : List PacketId}
    {pending : List (Xid × PacketId)} {dispatches : List Dispatch} {outstanding : Nat}
    {nextXid : Xid} {shutdown : Bool} {holding : Holding} {senders : List Sender}
    {calls : List (Ticket × Call)} {listeners : List Listener} {nextListener : ListenerId}
    {nextTicket : Ticket} {latency : Option LatencyRegistry} :
    Calm c { c with
      roster, rejected, status, sessionId, endpoint, sessionTimeout, packets, outgoing, retry
      pending, dispatches, outstanding, nextXid, shutdown, holding, senders, calls, listeners
      nextListener, nextTicket, latency } :=
  ⟨rfl, rfl, rfl, [], (List.append_nil _).symm, by simp⟩

theorem calm_record (c : Connection) {e : Event} (h : e.isBeat = false) : Calm c (c.record e) :=
  ⟨rfl, rfl, rfl, [e], c.log_record e, by simpa using h⟩

theorem calm_publish (c : Connection) (d : Dispatch) : Calm c (c.publish d) :=
  c.calm_fields.trans (calm_record _ rfl)

theorem Calm.overlooksCalls : OverlooksCalls Calm where
  refl := refl
  returned c _ _ _ := c.calm_fields.trans (calm_record _ rfl)

theorem Calm.overlooksPackets : OverlooksPackets Calm where
  refl := refl
  trans := trans
  fields c := c.calm_fields
  completes c _ := c.calm_publish _

theorem Calm.overlooksSessions : OverlooksSessions Calm where
  refl := refl
  trans := trans
  fields c := c.calm_fields
  tells c _ _ := c.calm_publish _

theorem calm_closeOut (c : Connection) : Calm { c with carrier := .finished } c.closeOut := by
  obtain ⟨b, closed, same⟩ := Calm.overlooksSessions.closeOut Calm.overlooksPackets c
  rw [same]
  exact closed.turns .finished

theorem calm_sessionFailed (c : Connection) (f : Failure) : ∃ search,
    Calm ({ c with carrier := .seeking search }.record (.lost f)) (c.sessionFailed f) := by
  obtain ⟨b, offer, lost, same⟩ := Calm.overlooksSessions.sessionFailed Calm.overlooksPackets c f
  rw [same]
  exact ⟨_, lost.turns _⟩

theorem SendMove.calm {c c' : Connection} {t : Ticket} (m : SendMove c t c') : Calm c c' := by
  cases m with
  | begun op request callback => exact c.calm_fields
  | numbered split stage => exact c.calm_fields
  | _ => exact c.calm_fields.trans (calm_record _ rfl)

theorem DeliverStep.calm {c c' : Connection} (m : DeliverStep c c') : Calm c c' := by
  cases m with
  | ran => exact (c.calm_fields.trans (calm_record _ rfl)).trans (Calm.overlooksPackets.invoke _ _)
  | told => exact c.calm_fields.trans (calm_record _ rfl)

theorem calm_updateRoster (c : Connection) (endpoints : List Endpoint) :
    Calm c (c.updateRoster endpoints).2 := by
  unfold updateRoster
  split
  · exact c.calm_fields
  · exact .refl c

theorem calm_attemptFailed (c : Connection) (s : Search) (e : Endpoint) (f : Failure) :
    Calm { c with carrier := .seeking (s.giveUp f) } (c.attemptFailed s e f) :=
  ((calm_fields _).trans (calm_record _ rfl)).trans
    (Calm.overlooksSessions.attemptFailed c s e f)

def Drive.fresh (session : Session) (now : Nat) : Drive :=
  { session, lastFrame := now, lastPong := now, lastPing := now }

theorem calm_openSession (c : Connection) (s : Search) (session : Session) :
    Calm { c with carrier := .driving (.fresh session c.now) } (c.openSession s session) := by
  obtain ⟨b, started, after⟩ := Calm.overlooksSessions.openSession Calm.overlooksCalls c s session
  have noted := (c.calm_fields.trans (calm_record _ rfl)).trans started
  have start (now : Nat) (same : now = c.now) :
      Calm { c with carrier := .driving (.fresh session c.now) }
        { b with carrier := .driving (.fresh session now) } := same ▸ noted.turns _
  exact (start b.now noted.now).trans after

theorem clocks_of_answer {b c : Connection} {r : Except Failure ServerFrame} {d : Drive}
    (h : b.step (.answer r) = some c) (driving : c.carrier = .driving d) :
    d.lastFrame = c.now ∧ d.lastPong = c.now ∧ d.lastPing = c.now := by
  obtain ⟨s, seeking, m⟩ := searchStep_of_answer h
  cases m with
  | @opened e stop r session =>
    have opened := b.calm_openSession s session
    obtain rfl := Carrier.driving.inj (opened.carrier.symm.trans driving)
    rw [opened.now]
    exact ⟨rfl, rfl, rfl⟩
  | failed => cases (b.calm_attemptFailed _ _ _).carrier.symm.trans driving
  | stopped stops => rcases stops with stops | stops <;> cases stops

/-- Why a session ends, with what is told of it before the end: the connection is lost, the server
ends it, or a clock has run out. -/
inductive Breaks (c : Connection) (d : Drive) : List Event → Failure → Prop where
  | cut (text : String) : Breaks c d [] (.connectionLoss text)
  | pushed : Breaks c d [.received .sessionExpired] .sessionExpired
  | expired (due : d.expiry ≤ c.now) : Breaks c d [] .sessionExpired
  | silent (due : d.silenceEnd c.settings ≤ c.now) :
    Breaks c d [] (.readTimeout c.settings.readTimeoutMs)

def Drive.hear (d : Drive) (now : Nat) : ServerFrame → Drive
  | .pong => { d with lastFrame := now, lastPong := now }
  | _ => { d with lastFrame := now }

/-- All that a step can do to the clocks of a session, with what happens in it. -/
inductive Beat (c : Connection) (d : Drive) : Action → List Event → Connection → Prop where
  | passes (time : Nat) : Beat c d (.advance time) [] { c with now := c.now + time }
  | keeps {a new c' writing} (now : c'.now = c.now) (settings : c'.settings = c.settings)
    (driving : c'.carrier = .driving { d with writing })
    (calm : ∀ e ∈ new, e.isBeat = false) : Beat c d a new c'
  | hears {a f rest c'} (now : c'.now = c.now) (settings : c'.settings = c.settings)
    (driving : c'.carrier = .driving (d.hear c.now f))
    (calm : ∀ e ∈ rest, e.isBeat = false) : Beat c d a (.received f :: rest) c'
  | pings {a c'} (now : c'.now = c.now) (settings : c'.settings = c.settings)
    (driving : c'.carrier = .driving { d with lastPing := c.now })
    (alive : c.now < d.expiry ∧ c.now < d.silenceEnd c.settings)
    (due : d.nextPing c.settings ≤ c.now) : Beat c d a [.pinged] c'
  | breaks {a f front rest c'} (cause : Breaks c d front f) (now : c'.now = c.now)
    (away : ∀ d', c'.carrier ≠ .driving d') (calm : ∀ e ∈ rest, e.isBeat = false) :
    Beat c d a (front ++ .lost f :: rest) c'
  | closes {a new c'} (now : c'.now = c.now) (away : ∀ d', c'.carrier ≠ .driving d')
    (calm : ∀ e ∈ new, e.isBeat = false) : Beat c d a new c'

theorem Calm.beat {c c' : Connection} (h : Calm c c') {d : Drive} (driving : c.carrier = .driving d)
    (a : Action) : ∃ new, c'.log = c.log ++ new ∧ Beat c d a new c' := by
  obtain ⟨new, log, calm⟩ := h.log
  have same : c'.carrier = .driving { d with writing := d.writing } := h.carrier.trans driving
  exact ⟨new, log, .keeps h.now h.settings same calm⟩

theorem beat_sessionFailed {c b : Connection} {d : Drive} {front : List Event} {f : Failure}
    (cause : Breaks c d front f) (now : b.now = c.now) (log : b.log = c.log ++ front) (a : Action) :
    ∃ new, (b.sessionFailed f).log = c.log ++ new ∧ Beat c d a new (b.sessionFailed f) := by
  obtain ⟨search, failed⟩ := b.calm_sessionFailed f
  obtain ⟨rest, after, calm⟩ := failed.log
  refine ⟨front ++ .lost f :: rest, ?_, .breaks cause (failed.now.trans now) (fun d' => ?_) calm⟩
  · have told : ({ b with carrier := .seeking search } : Connection).log = b.log := rfl
    rw [after, log_record, told, log]
    simp
  · rw [failed.carrier]
    simp [record]

theorem WriteStep.beat {c b c' : Connection} {d : Drive} {id : PacketId} {p : Packet} {w : Writing}
    (now : b.now = c.now) (settings : b.settings = c.settings) (log : b.log = c.log)
    (m : WriteStep b d id p w c') : ∃ new, c'.log = c.log ++ new ∧ Beat c d (.write w) new c' := by
  have idle {b' : Connection} (h : Calm b b') (writing : Bool) :
      ∃ new, ({ b' with carrier := .driving { d with writing } } : Connection).log = c.log ++ new ∧
        Beat c d (.write w) new { b' with carrier := .driving { d with writing } } := by
    obtain ⟨new, after, calm⟩ := h.log
    refine ⟨new, ?_, .keeps (h.now.trans now) (h.settings.trans settings) rfl calm⟩
    rw [← log]
    exact after
  cases m with
  | skipped => exact idle (.refl b) false
  | tooLarge => exact idle (Calm.overlooksPackets.complete _ _ _) false
  | written => exact idle (b.calm_fields.trans (calm_record _ rfl)) false
  | stalled =>
    have put : Calm b { b with retry := id :: b.retry } := b.calm_fields
    exact idle put true
  | broken new fits f =>
    refine beat_sessionFailed (b := { b with retry := b.retry ++ [id] }) (.cut f.message) now ?_ _
    rw [List.append_nil]
    exact log

theorem beat_handle {c : Connection} {d : Drive} (a : Action) (f : ServerFrame) :
    ∃ new, (({ c with carrier := .driving { d with lastFrame := c.now } }.record
      (.received f)).handle { d with lastFrame := c.now } f).log = c.log ++ new ∧
      Beat c d a new (({ c with carrier := .driving { d with lastFrame := c.now } }.record
        (.received f)).handle { d with lastFrame := c.now } f) := by
  generalize hb : ({ c with carrier := .driving { d with lastFrame := c.now } }.record
    (.received f) : Connection) = b
  have log : b.log = c.log ++ [.received f] := by rw [← hb, log_record]; rfl
  have hears {b' : Connection} (h : Calm b b')
      (same : d.hear c.now f = { d with lastFrame := c.now }) :
      ∃ new, b'.log = c.log ++ new ∧ Beat c d a new b' := by
    obtain ⟨rest, after, calm⟩ := h.log
    refine ⟨.received f :: rest, ?_, .hears ?_ ?_ ?_ calm⟩
    · rw [after, log, List.append_assoc]
      rfl
    · rw [h.now, ← hb]
      rfl
    · rw [h.settings, ← hb]
      rfl
    · rw [h.carrier, ← hb, same]
      rfl
  cases f with
  | response r => exact hears (Calm.overlooksPackets.respond b r) rfl
  | pong =>
    refine ⟨[.received .pong], log, .hears ?_ ?_ ?_ (by simp)⟩
    · rw [← hb]; rfl
    · rw [← hb]; rfl
    · rw [← hb]; rfl
  | notification n => exact hears (b.calm_publish _) rfl
  | sessionExpired => exact beat_sessionFailed .pushed (by rw [← hb]; rfl) log a
  | connected r => exact hears (.refl b) rfl
  | authFailed reason => exact hears (.refl b) rfl

theorem SessionStep.beat {c c' : Connection} {d : Drive} {a : Action}
    (m : SessionStep c d a c') : ∃ new, c'.log = c.log ++ new ∧ Beat c d a new c' := by
  have same : c.log = c.log ++ [] := (List.append_nil _).symm
  cases m with
  | heard ready f => exact beat_handle _ f
  | cut ready f => exact beat_sessionFailed (.cut f.message) rfl same _
  | expired ready due => exact beat_sessionFailed (.expired due) rfl same _
  | silent ready alive due => exact beat_sessionFailed (.silent due) rfl same _
  | pinged ready alive due => exact ⟨_, log_record _ _, .pings rfl rfl rfl alive due⟩
  | unpinged ready alive due f =>
    exact beat_sessionFailed (c := c)
      (b := { c with carrier := .driving { d with lastPing := c.now } }) (.cut f.message) rfl same _
  | hungUp asked whole told =>
    have noted : Calm c (c.record (.ended told)) := c.calm_record rfl
    have closed := (noted.turns .finished).trans (calm_closeOut _)
    obtain ⟨new, log, calm⟩ := closed.log
    refine ⟨new, log, .closes closed.now (fun d' => ?_) calm⟩
    rw [closed.carrier]
    simp

theorem CallStep.calm {c c' : Connection} {d : Drive} {a : Action}
    (driving : c.carrier = .driving d) (m : CallStep c a c') : Calm c c' := by
  cases m with
  | sought row alive free => cases driving.symm.trans free
  | turnedAway => exact Calm.overlooksCalls.returnFirst c _
  | closed row idle | gone deserted idle => exact absurd driving (idle.2 d)
  | left => exact c.calm_fields

/-- Every step of a connection with a session is one of the beats. -/
theorem beat_of_step {c c' : Connection} {a : Action} {d : Drive} (driving : c.carrier = .driving d)
    (h : c.step a = some c') : ∃ new, c'.log = c.log ++ new ∧ Beat c d a new c' := by
  cases stepped_of_step h with
  | passed time => exact ⟨[], (List.append_nil _).symm, .passes time⟩
  | listed endpoints => exact (c.calm_updateRoster endpoints).beat driving _
  | listened | unlistened | letGo | called | asked => exact c.calm_fields.beat driving _
  | sent actor m => exact m.calm.beat driving _
  | call m => exact (m.calm driving).beat driving _
  | searched seeking m => cases driving.symm.trans seeking
  | @wrote d' id p c₁ w c' driving' takes packet m =>
    obtain rfl := Carrier.driving.inj (driving.symm.trans driving')
    obtain ⟨now, settings, log⟩ : c₁.now = c.now ∧ c₁.settings = c.settings ∧ c₁.log = c.log := by
      cases takes <;> exact ⟨rfl, rfl, rfl⟩
    exact m.beat now settings log
  | used driving' m =>
    obtain rfl := Carrier.driving.inj (driving.symm.trans driving')
    exact m.beat
  | delivered m => exact m.calm.beat driving _

end ServiceDirectory.Connection
