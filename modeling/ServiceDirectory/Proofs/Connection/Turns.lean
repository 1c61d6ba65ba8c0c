import ServiceDirectory.Proofs.Connection.Completions

/-! What a step of a connection does to its session. Most steps are steady: the session, the status
and what the carrier is about stay as they are. The others are turns, listed here in the same way as
the moves of packets. -/
namespace ServiceDirectory.Connection

/-- What the carrier is about. -/
inductive Stance where
  | free
  | seeking (resumes : Bool) (offer : Option SessionId)
  | driving (s : Session)
  | finished
  deriving DecidableEq

def Carrier.stance : Carrier → Stance
  | .free => .free
  | .seeking s => .seeking s.resumes s.offer
  | .driving d => .driving d.session
  | .finished => .finished

def stance (c : Connection) : Stance := c.carrier.stance

def Event.isTurn : Event → Bool
  | .published (.status _ _) | .published (.session _ _ _) => true
  | .attempted _ _ | .opened _ | .lost _ => true
  | .received .sessionExpired => true
  | _ => false

/-- The session, the status and the stance stay, and nothing happened that has to do with them. -/
structure Steady (c c' : Connection) : Prop where
  settings : c'.settings = c.settings
  status : c'.status = c.status
  sessionId : c'.sessionId = c.sessionId
  endpoint : c'.endpoint = c.endpoint
  sessionTimeout : c'.sessionTimeout = c.sessionTimeout
  stance : c'.stance = c.stance
  history : ∃ es, c'.history = es ++ c.history ∧ ∀ e ∈ es, e.isTurn = false

namespace Steady

theorem refl (c : Connection) : Steady c c :=
  ⟨rfl, rfl, rfl, rfl, rfl, rfl, [], rfl, by simp⟩

theorem trans {a b c : Connection} (h : Steady a b) (k : Steady b c) : Steady a c := by
  obtain ⟨es, he, hes⟩ := h.history
  obtain ⟨fs, hf, hfs⟩ := k.history
  refine ⟨k.settings.trans h.settings, k.status.trans h.status, k.sessionId.trans h.sessionId,
    k.endpoint.trans h.endpoint, k.sessionTimeout.trans h.sessionTimeout, k.stance.trans h.stance,
    fs ++ es, ?_, ?_⟩
  · rw [hf, he, List.append_assoc]
  · intro e hm
    rcases List.mem_append.mp hm with hm | hm
    · exact hfs e hm
    · exact hes e hm

end Steady

theorem steady_record (c : Connection) {e : Event} (h : e.isTurn = false) : Steady c (c.record e) :=
  ⟨rfl, rfl, rfl, rfl, rfl, rfl, [e], rfl, by simpa using h⟩

theorem steady_fields (c : Connection) {now : Nat} {roster : Roster} {rejected : List Endpoint}
    {packets : List Packet} {outgoing retry : List PacketId} {pending : List (Xid × PacketId)}
    {dispatches : List Dispatch} {outstanding : Nat} {nextXid : Xid} {shutdown : Bool}
    {holding : Holding} {senders : List Sender} {calls : List (Ticket × Call)}
    {listeners : List Listener} {nextListener : ListenerId} {nextTicket : Ticket}
    {latency : Option LatencyRegistry} :
    Steady c { c with
      now, roster, rejected, packets, outgoing, retry, pending, dispatches, outstanding, nextXid
      shutdown, holding, senders, calls, listeners, nextListener, nextTicket, latency } :=
  ⟨rfl, rfl, rfl, rfl, rfl, rfl, [], rfl, by simp⟩

theorem steady_carrier (c : Connection) {carrier : Carrier}
    (h : carrier.stance = c.carrier.stance) : Steady c { c with carrier } :=
  ⟨rfl, rfl, rfl, rfl, rfl, h, [], rfl, by simp⟩

theorem Steady.overlooksCalls : OverlooksCalls Steady where
  refl := refl
  returned c _ _ _ := c.steady_fields.trans (steady_record _ rfl)

theorem Steady.overlooksPackets : OverlooksPackets Steady where
  refl := refl
  trans := trans
  fields c := c.steady_fields
  completes c _ := c.steady_fields.trans (steady_record _ rfl)

theorem steady_returnFirst (c : Connection) (r : Except Failure Unit) :
    Steady c (c.returnFirst r) :=
  Steady.overlooksCalls.returnFirst c r

theorem steady_closeOut (c : Connection) :
    Steady { c.finishClosed with carrier := .finished } c.closeOut := by
  obtain ⟨b, ended, same⟩ := Steady.overlooksPackets.closeOut c
  rw [same]
  exact ⟨ended.settings, ended.status, ended.sessionId, ended.endpoint, ended.sessionTimeout, rfl,
    ended.history⟩

theorem steady_updateRoster (c : Connection) (endpoints : List Endpoint) :
    Steady c (c.updateRoster endpoints).2 := by
  unfold updateRoster
  split
  · exact c.steady_fields
  · exact .refl c

/-- All that a step can do to the session. -/
inductive Turn (c : Connection) : Connection → Prop where
  | steady {c'} (q : Steady c c') : Turn c c'
  | sought (idle : c.carrier = .free) (alive : c.status ≠ .closed) (timeout : Nat) :
    Turn c { c with carrier := .seeking (.initial c.now timeout) }
  | attempted {s e c'} (seeking : c.carrier = .seeking s)
    (q : Steady (c.record (.attempted e s.offer)) c') : Turn c c'
  | rejected {s c₁} (seeking : c.carrier = .seeking s) (before : Steady c c₁) :
    Turn c (c₁.transition .authFailed)
  | opened {search s d c'} (seeking : c.carrier = .seeking search) (uses : d.session = s)
    (after : Steady { c.sessionStarted s search with carrier := .driving d } c') : Turn c c'
  | lost {d f c₁} (driving : c.carrier = .driving d) (before : Steady c c₁) :
    Turn c (c₁.sessionFailed f)
  | expired {d c₁} (driving : c.carrier = .driving d) (before : Steady c c₁) :
    Turn c ((c₁.record (.received .sessionExpired)).sessionFailed .sessionExpired)
  | gaveUp {s f c₁} (seeking : c.carrier = .seeking s) (first : s.resumes = false)
    (before : Steady c c₁) : Turn c (c₁.connectFailed f)
  | withdrew {s c₁ c'} (seeking : c.carrier = .seeking s) (first : s.resumes = false)
    (before : Steady c c₁) (after : Steady { c₁ with carrier := .free } c') : Turn c c'
  | closedOut {c₁ c'} (before : Steady c c₁) (after : Steady c₁.closeOut c')
    (drained : c'.outgoing = [] ∧ c'.retry = [] ∧ c'.pending = []) : Turn c c'

theorem turn_closeOut {c c₁ : Connection} (before : Steady c c₁) : Turn c c₁.closeOut := by
  obtain ⟨hp, hr, ho⟩ := c₁.closeOut_drained
  exact .closedOut before (.refl _) ⟨ho, hr, hp⟩

theorem turn_searchFailed {c c₁ : Connection} {s : Search} (seeking : c.carrier = .seeking s)
    (before : Steady c c₁) (f : Failure) : Turn c (c₁.searchFailed s f) := by
  unfold searchFailed
  split
  · exact turn_closeOut before
  · rename_i first
    exact .gaveUp seeking (Bool.eq_false_iff.mpr first) before

theorem turn_searchStopped {c c₁ : Connection} {s : Search} (seeking : c.carrier = .seeking s)
    (before : Steady c c₁) : Turn c (c₁.searchStopped s) := by
  unfold searchStopped
  split
  · exact turn_closeOut before
  · rename_i first
    exact .withdrew seeking (Bool.eq_false_iff.mpr first) before (steady_returnFirst _ _)

theorem turn_attemptFailed {c : Connection} {s : Search} (seeking : c.carrier = .seeking s)
    (e : Endpoint) (f : Failure) : Turn c (c.attemptFailed s e f) := by
  have noted : Steady c ({ c with carrier := .seeking (s.giveUp f) }.record (.attemptFailed e f)) :=
    (c.steady_carrier (by rw [seeking]; rfl)).trans (steady_record _ rfl)
  unfold attemptFailed
  simp only
  split
  · exact .rejected seeking (noted.trans (steady_fields _))
  · exact .steady noted

theorem SearchStep.turn {c c' : Connection} {s : Search} {a : Action}
    (seeking : c.carrier = .seeking s) (m : SearchStep c s a c') : Turn c c' := by
  -- Where a search goes on it is for the same as before.
  have kept (roster : Roster) (phase : Search.Phase) :
      Steady c { c with roster, carrier := .seeking { s with phase } } := by
    have went : Steady c { c with carrier := .seeking { s with phase } } :=
      c.steady_carrier (by rw [seeking]; rfl)
    exact went.trans (steady_fields _)
  cases m with
  | begun ready begins =>
    obtain ⟨-, ⟨-, rfl⟩ | ⟨-, stop, rfl⟩⟩ := Search.continues_of_begin begins
    · exact .steady (kept c.roster _)
    · exact .steady (kept c.roster _)
  | spent | deserted => exact turn_searchFailed seeking (.refl c) _
  | waited | counted => exact .steady (kept c.roster _)
  | passedOver => exact .steady (kept c.roster.advance _)
  | chose =>
    refine .attempted (e := c.roster.peek) seeking ?_
    have noted : Steady (c.record (.attempted c.roster.peek s.offer))
        ({ c with roster := c.roster.advance }.record (.attempted c.roster.peek s.offer)) :=
      (c.record (.attempted c.roster.peek s.offer)).steady_fields
    refine noted.trans (steady_carrier _ ?_)
    change _ = c.carrier.stance
    rw [seeking]
    rfl
  | opened =>
    unfold openSession
    simp only
    split
    · refine .opened seeking ?_ (.refl _)
      rfl
    · refine .opened seeking ?_ (steady_returnFirst _ _)
      rfl
  | failed | timedOut => exact turn_attemptFailed seeking _ _
  | stopped => exact turn_searchStopped seeking (.refl c)

theorem WriteStep.turn {c c₁ c' : Connection} {d : Drive} {id : PacketId} {p : Packet} {w : Writing}
    (driving : c.carrier = .driving d) (before : Steady c c₁) (m : WriteStep c₁ d id p w c') :
    Turn c c' := by
  have idle {c₂ : Connection} {writing : Bool} (h : Steady c c₂) :
      Steady c { c₂ with carrier := .driving { d with writing } } := by
    refine h.trans (c₂.steady_carrier ?_)
    have hs : c₂.carrier.stance = c.carrier.stance := h.stance
    rw [hs, driving]
    rfl
  cases m with
  | skipped => exact .steady (idle before)
  | tooLarge => exact .steady (idle (before.trans (Steady.overlooksPackets.complete _ _ _)))
  | written => exact .steady (idle (before.trans ((steady_fields _).trans (steady_record _ rfl))))
  | stalled =>
    have put : Steady c { c₁ with retry := id :: c₁.retry } := before.trans c₁.steady_fields
    exact .steady (idle put)
  | broken => exact .lost driving (before.trans (steady_fields _))

theorem turn_handle {c : Connection} {d : Drive} (driving : c.carrier = .driving d)
    {d' : Drive} (same : d'.session = d.session) (f : ServerFrame) :
    Turn c (({ c with carrier := .driving d' }.record (.received f)).handle d' f) := by
  have kept : Steady c { c with carrier := .driving d' } :=
    c.steady_carrier (by rw [driving]; exact congrArg Stance.driving same)
  cases f with
  | response r =>
    exact .steady ((kept.trans (steady_record _ rfl)).trans
      (Steady.overlooksPackets.respond _ r))
  | pong => exact .steady ((kept.trans (steady_record _ rfl)).trans (steady_carrier _ rfl))
  | notification n =>
    exact .steady ((kept.trans (steady_record _ rfl)).trans
      ((steady_fields _).trans (steady_record _ rfl)))
  | sessionExpired => exact .expired driving kept
  | connected r => exact .steady (kept.trans (steady_record _ rfl))
  | authFailed reason => exact .steady (kept.trans (steady_record _ rfl))

theorem SessionStep.turn {c c' : Connection} {d : Drive} {a : Action}
    (driving : c.carrier = .driving d) (m : SessionStep c d a c') : Turn c c' := by
  have pinged : Steady c { c with carrier := .driving { d with lastPing := c.now } } :=
    c.steady_carrier (by rw [driving]; rfl)
  cases m with
  | heard ready f =>
    refine turn_handle driving ?_ f
    rfl
  | cut | expired | silent => exact .lost driving (.refl c)
  | pinged => exact .steady (pinged.trans (steady_record _ rfl))
  | unpinged => exact .lost driving pinged
  | hungUp => exact turn_closeOut (c.steady_record rfl)

theorem CallStep.turn {c c' : Connection} {a : Action} (m : CallStep c a c') : Turn c c' := by
  cases m with
  | sought row alive free => exact .sought free alive _
  | turnedAway => exact .steady (c.steady_returnFirst _)
  | closed =>
    obtain ⟨hp, hr, ho⟩ := c.closeOut_drained
    have q := Quiet.overlooksCalls.returnFirst c.closeOut (.ok ())
    exact .closedOut (.refl c) (steady_returnFirst _ _)
      ⟨q.outgoing.trans ho, q.retry.trans hr, q.pending.trans hp⟩
  | left => exact .steady c.steady_fields
  | gone => exact turn_closeOut c.steady_fields

theorem SendMove.steady {c c' : Connection} {t : Ticket} (m : SendMove c t c') : Steady c c' := by
  cases m with
  | begun op request callback => exact c.steady_fields
  | numbered split stage => exact c.steady_fields
  | _ => exact c.steady_fields.trans (steady_record _ rfl)

theorem DeliverStep.steady {c c' : Connection} (m : DeliverStep c c') : Steady c c' := by
  cases m with
  | ran =>
    exact (c.steady_fields.trans (steady_record _ rfl)).trans
      (Steady.overlooksPackets.invoke _ _)
  | told => exact c.steady_fields.trans (steady_record _ rfl)

/-- Every step is steady or one of the turns. -/
theorem turn_of_step {c c' : Connection} {a : Action} (h : c.step a = some c') : Turn c c' := by
  cases stepped_of_step h with
  | passed | listened | unlistened | letGo | called | asked => exact .steady c.steady_fields
  | listed endpoints => exact .steady (c.steady_updateRoster endpoints)
  | sent actor m => exact .steady m.steady
  | call m => exact m.turn
  | searched seeking m => exact m.turn seeking
  | wrote driving takes packet m => exact m.turn driving (Steady.overlooksPackets.takes takes)
  | used driving m => exact m.turn driving
  | delivered m => exact .steady m.steady

end ServiceDirectory.Connection
