import ServiceDirectory.Connection.Machine

/-! Relations between states to which some part of a connection does not matter. When all that an
operation does is to that part, the relation holds between a state and what the operation makes of
it. That is shown here once for all such relations. -/
namespace ServiceDirectory.Connection

theorem invoke_shape (c : Connection) (k : Completion) :
    ∃ packets latency, c.invoke k =
      { c with outstanding := c.outstanding - 1, packets, latency } := by
  unfold invoke
  cases hp : c.packets[k.packet]? with
  | none => exact ⟨c.packets, c.latency, by simp only [hp]⟩
  | some p => exact ⟨_, _, by simp only [hp]; rfl⟩

variable {R : Connection → Connection → Prop}

structure OverlooksCalls (R : Connection → Connection → Prop) : Prop where
  refl (c : Connection) : R c c
  returned (c : Connection) (calls : List (Ticket × Call)) (t : Ticket) (r : Except Failure Unit) :
    R c ({ c with calls }.record (.returned t r))

theorem OverlooksCalls.returnFirst (h : OverlooksCalls R) (c : Connection)
    (r : Except Failure Unit) : R c (c.returnFirst r) := by
  unfold Connection.returnFirst
  split
  · exact h.refl c
  · exact h.returned c _ _ r

/-- It matters neither what becomes of packets nor which of them are completed. -/
structure OverlooksPackets (R : Connection → Connection → Prop) : Prop where
  refl (c : Connection) : R c c
  trans {a b c : Connection} (first : R a b) (second : R b c) : R a c
  fields (c : Connection) {packets : List Packet} {outgoing retry : List PacketId}
    {pending : List (Xid × PacketId)} {outstanding : Nat} {latency : Option LatencyRegistry} :
    R c { c with packets, outgoing, retry, pending, outstanding, latency }
  completes (c : Connection) (k : Completion) : R c (c.publish (.completion k))

namespace OverlooksPackets

variable (h : OverlooksPackets R)
include h

theorem complete (c : Connection) (p : PacketId) (r : PacketResult) : R c (c.complete p r) := by
  unfold Connection.complete
  split
  · exact h.refl c
  · exact h.trans (h.fields c) (h.completes _ _)

theorem failAll (c : Connection) (ps : List PacketId) (f : Failure) : R c (c.failAll ps f) := by
  induction ps generalizing c with
  | nil => exact h.refl c
  | cons p ps ih => exact h.trans (h.complete c p (.error f)) (ih _)

theorem failPending (c : Connection) (f : Failure) : R c (c.failPending f) :=
  h.trans (h.failAll c _ f) (h.fields _)

theorem failRetry (c : Connection) (f : Failure) : R c (c.failRetry f) :=
  h.trans (h.failAll c _ f) (h.fields _)

theorem failOutgoing (c : Connection) (f : Failure) : R c (c.failOutgoing f) :=
  h.trans (h.failAll c _ f) (h.fields _)

theorem respond (c : Connection) (r : ResponseFrame) : R c (c.respond r) := by
  unfold Connection.respond
  split
  · exact h.refl c
  · exact h.trans (h.fields c) (h.complete _ _ _)

theorem invoke (c : Connection) (k : Completion) : R c (c.invoke k) := by
  obtain ⟨packets, latency, shape⟩ := c.invoke_shape k
  rw [shape]
  exact h.fields c

theorem closeOut (c : Connection) :
    ∃ b, R c.finishClosed b ∧ c.closeOut = { b with carrier := .finished } :=
  ⟨_, h.trans (h.trans (h.failPending _ _) (h.failRetry _ _)) (h.failOutgoing _ _), rfl⟩

end OverlooksPackets

/-- It matters neither what becomes of the session nor what is told about it. -/
structure OverlooksSessions (R : Connection → Connection → Prop) : Prop where
  refl (c : Connection) : R c c
  trans {a b c : Connection} (first : R a b) (second : R b c) : R a c
  fields (c : Connection) {status : ConnectionStatus} {sessionId : Option SessionId}
    {endpoint : Option Endpoint} {sessionTimeout : Option Nat} :
    R c { c with status, sessionId, endpoint, sessionTimeout }
  tells (c : Connection) {d : Dispatch}
    (about : d.topic? = some .status ∨ d.topic? = some .session) : R c (c.publish d)

namespace OverlooksSessions

variable (h : OverlooksSessions R)
include h

theorem transition (c : Connection) (next : ConnectionStatus) : R c (c.transition next) := by
  unfold Connection.transition
  split
  · exact h.refl c
  · exact h.trans (h.fields c) (h.tells _ (.inl rfl))

theorem endSession (c : Connection) : R c c.endSession := by
  unfold Connection.endSession
  split
  · exact h.refl c
  · exact h.trans (h.fields c) (h.tells _ (.inr rfl))

theorem sessionLost (c : Connection) (expired : Bool) : R c (c.sessionLost expired) := by
  refine h.trans ?_ (h.transition _ _)
  cases expired
  · exact h.fields c
  · exact h.trans (h.endSession c) (h.fields _)

theorem finishClosed (c : Connection) : R c c.finishClosed :=
  h.trans (h.trans (h.endSession c) (h.fields _)) (h.transition _ _)

theorem sessionStarted (c : Connection) (s : Session) (search : Search) :
    R ({ c with roster := c.roster.markConnected s.endpoint }.record (.opened s))
      (c.sessionStarted s search) := by
  have noted : R ({ c with roster := c.roster.markConnected s.endpoint }.record (.opened s))
      ({ c with
        endpoint := some s.endpoint
        sessionTimeout := some s.timeout
        sessionId := some s.id
        roster := c.roster.markConnected s.endpoint }.record (.opened s)) := h.fields _
  unfold Connection.sessionStarted
  simp only
  split
  · exact h.trans (h.trans noted (h.transition _ _)) (h.tells _ (.inr rfl))
  · exact h.trans (h.trans noted (h.transition _ _)) (h.tells _ (.inr rfl))
  · split
    · exact h.trans noted (h.transition _ _)
    · exact h.trans (h.trans (h.trans noted (h.tells _ (.inr rfl))) (h.transition _ _))
        (h.tells _ (.inr rfl))

theorem attemptFailed (c : Connection) (s : Search) (e : Endpoint) (f : Failure) :
    R ({ c with
      carrier := .seeking (s.giveUp f)
      rejected := if f.isAuth then e :: c.rejected else c.rejected
      }.record (.attemptFailed e f)) (c.attemptFailed s e f) := by
  unfold Connection.attemptFailed
  simp only
  split
  · exact h.transition _ _
  · exact h.refl _

theorem openSession (k : OverlooksCalls R) (c : Connection) (s : Search) (session : Session) :
    ∃ b, R ({ c with roster := c.roster.markConnected session.endpoint }.record
        (.opened session)) b ∧
      R { b with
          carrier := .driving
            { session, lastFrame := b.now, lastPong := b.now, lastPing := b.now } }
        (c.openSession s session) := by
  refine ⟨_, h.sessionStarted c session s, ?_⟩
  unfold Connection.openSession
  simp only
  split
  · exact h.refl _
  · exact k.returnFirst _ _

theorem closeOut (k : OverlooksPackets R) (c : Connection) :
    ∃ b, R c b ∧ c.closeOut = { b with carrier := .finished } := by
  obtain ⟨b, ended, same⟩ := k.closeOut c
  exact ⟨b, h.trans (h.finishClosed c) ended, same⟩

theorem sessionFailed (k : OverlooksPackets R) (c : Connection) (f : Failure) :
    ∃ b offer, R (c.record (.lost f)) b ∧
      c.sessionFailed f = { b with carrier := .seeking (.resuming b.settings offer) } :=
  ⟨_, _, h.trans (k.failPending _ _) (h.sessionLost _ _), rfl⟩

theorem connectFailed (k : OverlooksPackets R) (c : Connection) (f : Failure) :
    ∃ b, R c b ∧ c.connectFailed f = { b with carrier := .free }.returnFirst (.error f) := by
  refine ⟨_, h.trans ?_ (k.failOutgoing _ _), rfl⟩
  split
  · exact h.refl c
  · exact h.transition c _

end OverlooksSessions

end ServiceDirectory.Connection
