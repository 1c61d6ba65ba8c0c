import ServiceDirectory.Proofs.Connection.Quiet
import ServiceDirectory.Proofs.Connection.Steps

/-! What a step of a connection does to its packets. Either the step is quiet, or it is one of a few
moves, each listed with all that it changes. Invariants of the packets are proved by cases on this
list. -/
namespace ServiceDirectory

def Failure.isOwn : Failure → Bool
  | .server _ => false
  | _ => true

theorem Failure.isOwn_ofConnect (f : Failure) : f.ofConnect.isOwn = true := by
  cases f <;> rfl

def Failure.isTimeout : Failure → Bool
  | .connectTimeout _ _ => true
  | _ => false

def Failure.endsSession : Failure → Bool
  | .readTimeout _ | .sessionExpired | .connectionLoss _ => true
  | _ => false

theorem Failure.isOwn_of_endsSession {f : Failure} (h : f.endsSession = true) :
    f.isOwn = true := by
  cases f <;> first | rfl | cases h

namespace Connection

/-- The search for another session comes to nothing: its attempts are used up, or all the endpoints
that could be drawn have turned down the credentials. -/
def exhausted (c : Connection) : Prop :=
  ∃ s, c.carrier = .seeking s ∧ s.resumes = true ∧
    ((s.phase = .ready ∧ ∃ f, s.begin c.settings c.now c.shutdown = .failed f) ∨
      s.phase = .drawing 0)

/-- What closes a connection for good: the caller, a search that comes to nothing, or a step on a
connection that neither has a session nor looks for one. -/
structure Closing (c c' : Connection) : Prop where
  closed : c'.status = .closed
  cause : c.shutdown = true ∨ c.exhausted ∨
    (∀ s, c.carrier ≠ .seeking s) ∧ ∀ d, c.carrier ≠ .driving d

def Event.isSend : Event → Bool
  | .reserved _ | .accepted _ _ | .refused _ _ => true
  | _ => false

theorem SendMove.history {c c' : Connection} {t : Ticket} (m : SendMove c t c') :
    ∃ es, c'.history = es ++ c.history ∧ ∀ e ∈ es, e.isSend = true := by
  cases m with
  | begun op request callback => exact ⟨[], rfl, by simp⟩
  | numbered split stage => exact ⟨[], rfl, by simp⟩
  | _ => exact ⟨[_], rfl, by simp [Event.isSend]⟩

/-- All that a step can do to packets; a step of a send is told by the number of the send. -/
inductive Move (c : Connection) : Option Ticket → Connection → Prop where
  | quiet {c'} (q : Quiet c c') : Move c none c'
  | sending {t c'} (m : SendMove c t c') : Move c (some t) c'
  | opened {search s c'} (seeking : c.carrier = .seeking search)
    (q : Quiet (c.record (.opened s)) c') : Move c none c'
  | skipped {id p c₁ c'} (takes : Takes c id c₁) (packet : c₁.packets[id]? = some p)
    (done : p.completed = true) (q : Quiet c₁ c') : Move c none c'
  | tooLarge {id p c₁ c'} (takes : Takes c id c₁) (packet : c₁.packets[id]? = some p)
    (q : Quiet (c₁.complete id (.error (Framing.tooLarge p.frameSize))) c')
    (large : p.isOversized = true) : Move c none c'
  | written {d id p} {c₁ c' : Connection} (driving : c.carrier = .driving d) (takes : Takes c id c₁)
    (packet : c₁.packets[id]? = some p)
    (q : Quiet ({ c₁.updatePacket id (·.markSent c₁.now) with
      pending := c₁.pending.filter (fun (q : Xid × PacketId) => q.1 != p.xid) ++
        [(p.xid, id)] }.record (.written id)) c') : Move c none c'
  | stalled {id p c₁ c'} (takes : Takes c id c₁)
    (q : Quiet { c₁ with retry := id :: c₁.retry } c') (packet : c₁.packets[id]? = some p)
    (fits : p.isOversized = false) : Move c none c'
  | broken {d id p c₁ f c'} (driving : c.carrier = .driving d) (takes : Takes c id c₁)
    (own : f.isOwn = true)
    (q : Quiet (({ c₁ with retry := c₁.retry ++ [id] }.record (.lost f)).failPending f) c')
    (ends : f.endsSession = true) (packet : c₁.packets[id]? = some p)
    (fits : p.isOversized = false) : Move c none c'
  | stray {d r c'} (driving : c.carrier = .driving d) (unknown : c.pending.lookup r.xid = none)
    (q : Quiet (c.record (.received (.response r))) c') : Move c none c'
  | answered {d r id} {c₁ : Connection} (driving : c.carrier = .driving d)
    (known : c.pending.lookup r.xid = some id)
    (q : Quiet (c.record (.received (.response r))) c₁) :
    Move c none (({ c₁ with pending := c₁.pending.filter (·.1 != r.xid) }.updatePacket id
      (·.markReceived c₁.now)).complete id (Packet.resultOf r))
  | lost {d f c₁ c'} (driving : c.carrier = .driving d) (own : f.isOwn = true)
    (before : Quiet c c₁) (after : Quiet ((c₁.record (.lost f)).failPending f) c')
    (ends : f.endsSession = true) : Move c none c'
  | gaveUp {search f c₁ c'} (seeking : c.carrier = .seeking search) (own : f.isOwn = true)
    (before : Quiet c c₁) (after : Quiet (c₁.failOutgoing f) c')
    (first : search.resumes = false) : Move c none c'
  | closedOut {c₁ c'} (before : Quiet c c₁)
    (after : Quiet (((c₁.failPending .connectionClosed).failRetry .connectionClosed).failOutgoing
      .connectionClosed) c') (closing : Closing c c') : Move c none c'
  | delivered {k rest} (head : c.dispatches = .completion k :: rest) (ls : List ListenerId) :
    Move c none (({ c with dispatches := rest }.record (.delivered (.completion k) ls)).invoke k)

theorem status_returnFirst (c : Connection) (r : Except Failure Unit) :
    (c.returnFirst r).status = c.status := by
  unfold returnFirst
  split <;> rfl

theorem move_closeOut {c c₁ c' : Connection} (before : Quiet c c₁) (after : Quiet c₁.closeOut c')
    (closing : Closing c c') : Move c none c' :=
  .closedOut (before.trans (Quiet.overlooksSessions.finishClosed c₁))
    ((quiet_fields _).trans after) closing

theorem exists_quiet_connectFailed (c : Connection) (f : Failure) :
    ∃ c₁, Quiet c c₁ ∧ Quiet (c₁.failOutgoing f.ofConnect) (c.connectFailed f) := by
  refine ⟨_, ?_, (quiet_fields _).trans (Quiet.overlooksCalls.returnFirst _ _)⟩
  split
  · exact .refl c
  · exact Quiet.overlooksSessions.transition c _

theorem move_connectFailed {c c₁ : Connection} {s : Search} (seeking : c.carrier = .seeking s)
    (first : s.resumes = false) (before : Quiet c c₁) (f : Failure) :
    Move c none (c₁.connectFailed f) := by
  obtain ⟨b, failing, after⟩ := c₁.exists_quiet_connectFailed f
  exact .gaveUp seeking f.isOwn_ofConnect (before.trans failing) after first

theorem move_sessionFailed {c c₁ : Connection} {d : Drive} (driving : c.carrier = .driving d)
    (before : Quiet c c₁) {f : Failure} (ends : f.endsSession = true) :
    Move c none (c₁.sessionFailed f) :=
  .lost driving (Failure.isOwn_of_endsSession ends) before
    ((Quiet.overlooksSessions.sessionLost _ _).trans (quiet_fields _)) ends

theorem move_searchFailed {c c₁ : Connection} {s : Search} (seeking : c.carrier = .seeking s)
    (before : Quiet c c₁) (f : Failure) (spent : s.resumes = true → c.exhausted) :
    Move c none (c₁.searchFailed s f) := by
  unfold searchFailed
  split
  · rename_i resumes
    exact move_closeOut before (.refl _) ⟨c₁.status_closeOut, .inr (.inl (spent resumes))⟩
  · rename_i first
    exact move_connectFailed seeking (Bool.eq_false_iff.mpr first) before f

theorem move_searchStopped {c c₁ : Connection} {s : Search} (before : Quiet c c₁)
    (asked : c.shutdown = true) : Move c none (c₁.searchStopped s) := by
  unfold searchStopped
  split
  · exact move_closeOut before (.refl _) ⟨c₁.status_closeOut, .inl asked⟩
  · exact .quiet (before.trans ((quiet_fields _).trans (Quiet.overlooksCalls.returnFirst _ _)))

theorem WriteStep.move {c c₁ c' : Connection} {d d' : Drive} {id : PacketId} {p : Packet}
    {w : Writing} (driving : c.carrier = .driving d) (takes : Takes c id c₁)
    (packet : c₁.packets[id]? = some p) (m : WriteStep c₁ d' id p w c') : Move c none c' := by
  cases m with
  | skipped done => exact .skipped takes packet done c₁.quiet_fields
  | tooLarge new large => exact .tooLarge takes packet (quiet_fields _) large
  | written => exact .written driving takes packet (quiet_fields _)
  | stalled new fits => exact .stalled takes (quiet_fields _) packet fits
  | broken new fits f =>
    exact .broken driving takes rfl
      ((Quiet.overlooksSessions.sessionLost _ _).trans (quiet_fields _)) rfl packet fits

theorem move_handle {c : Connection} {d d' : Drive} (driving : c.carrier = .driving d)
    (f : ServerFrame) :
    Move c none (({ c with carrier := .driving d' }.record (.received f)).handle d' f) := by
  have noted (hf : (Event.received f).isMark = false) :
      Quiet c ({ c with carrier := .driving d' }.record (.received f)) :=
    c.quiet_fields.trans (quiet_record _ hf)
  cases f with
  | response r =>
    have arrived : Quiet (c.record (.received (.response r)))
        ({ c with carrier := .driving d' }.record (.received (.response r))) :=
      (c.record (.received (.response r))).quiet_fields
    cases known : c.pending.lookup r.xid with
    | none =>
      simp only [handle, respond, record, known]
      exact .stray driving known arrived
    | some id =>
      simp only [handle, respond, record, known]
      exact .answered driving known arrived
  | pong => exact .quiet ((noted rfl).trans (quiet_fields _))
  | notification n => exact .quiet ((noted rfl).trans (quiet_publish _ rfl))
  | sessionExpired => exact move_sessionFailed driving (noted rfl) rfl
  | connected _ => exact .quiet (noted rfl)
  | authFailed _ => exact .quiet (noted rfl)

theorem SearchStep.move {c c' : Connection} {s : Search} {a : Action}
    (seeking : c.carrier = .seeking s) (m : SearchStep c s a c') : Move c none c' := by
  cases m with
  | begun | waited | counted | passedOver => exact .quiet c.quiet_fields
  | spent ready begins =>
    exact move_searchFailed seeking (.refl c) _ fun resumes =>
      ⟨s, seeking, resumes, .inl ⟨ready, _, begins⟩⟩
  | chose => exact .quiet (c.quiet_fields.trans (quiet_record _ rfl))
  | deserted none =>
    exact move_searchFailed seeking (.refl c) _ fun resumes => ⟨s, seeking, resumes, .inr none⟩
  | @opened e stop r session =>
    refine .opened seeking ((c.quiet_sessionStarted session s).trans ?_)
    unfold openSession
    simp only
    split
    · exact quiet_fields _
    · exact (quiet_fields _).trans (Quiet.overlooksCalls.returnFirst _ _)
  | failed | timedOut => exact .quiet (c.quiet_attemptFailed _ _ _)
  | stopped stops asked => exact move_searchStopped (.refl c) asked

theorem SessionStep.move {c c' : Connection} {d : Drive} {a : Action}
    (driving : c.carrier = .driving d) (m : SessionStep c d a c') : Move c none c' := by
  cases m with
  | heard ready f => exact move_handle driving f
  | cut | expired | silent => exact move_sessionFailed driving (.refl c) rfl
  | pinged => exact .quiet (c.quiet_fields.trans (quiet_record _ rfl))
  | unpinged => exact move_sessionFailed driving c.quiet_fields rfl
  | hungUp asked =>
    exact move_closeOut (quiet_record c rfl) (.refl _) ⟨status_closeOut _, .inl asked⟩

theorem CallStep.move {c c' : Connection} {a : Action} (m : CallStep c a c') : Move c none c' := by
  cases m with
  | sought | left => exact .quiet c.quiet_fields
  | turnedAway => exact .quiet (Quiet.overlooksCalls.returnFirst c _)
  | closed row idle =>
    have closed : (c.closeOut.returnFirst (.ok ())).status = .closed :=
      (c.closeOut.status_returnFirst _).trans c.status_closeOut
    exact move_closeOut (.refl c) (Quiet.overlooksCalls.returnFirst _ _) ⟨closed, .inr (.inr idle)⟩
  | gone deserted idle =>
    exact move_closeOut c.quiet_fields (.refl _) ⟨status_closeOut _, .inr (.inr idle)⟩

theorem DeliverStep.move {c c' : Connection} (m : DeliverStep c c') : Move c none c' := by
  cases m with
  | ran head => exact .delivered head _
  | @told d rest head topic =>
    have other : d.completion? = none := by
      cases d with
      | completion k => exact absurd rfl topic
      | _ => rfl
    refine .quiet ⟨rfl, rfl, rfl, rfl, rfl, rfl, rfl, rfl, rfl, Nat.le_refl _, ?_, [_], rfl, ?_⟩
    · simp [queued, head, record, other]
    · cases d with
      | completion k => exact absurd rfl topic
      | _ => simp [Event.isMark]

/-- Every step is one of the moves. -/
theorem move_of_step {c c' : Connection} {a : Action} (h : c.step a = some c') :
    Move c (c.actor a) c' := by
  cases stepped_of_step h with
  | passed | listened | unlistened | letGo => exact .quiet c.quiet_fields
  | listed endpoints => exact .quiet (c.quiet_updateRoster endpoints)
  | called timeout => exact .quiet (c.quiet_addCall _)
  | asked => exact .quiet (c.quiet_fields.trans (quiet_addCall _ _))
  | sent actor m => exact actor ▸ .sending m
  | call m => exact m.actor ▸ m.move
  | searched seeking m => exact m.actor ▸ m.move seeking
  | wrote driving takes packet m => exact m.move driving takes packet
  | used driving m => exact m.actor ▸ m.move driving
  | delivered m => exact m.move

end Connection
end ServiceDirectory
