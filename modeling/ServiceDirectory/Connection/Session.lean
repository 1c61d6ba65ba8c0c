import ServiceDirectory.Connection.State

/-! What the opening and the end of sessions do to a connection. The id of a session is kept over
its loss, to be taken up again, unless it expired; packets that were written are failed with it,
all others are kept for the next one. -/
namespace ServiceDirectory.Connection

/-- Notes a session that has just opened, and tells about it. A session that takes another's place
is told as the end of the old one and the opening of a new one. -/
def sessionStarted (c : Connection) (s : Session) (search : Search) : Connection :=
  let status := if s.readOnly then ConnectionStatus.connectedReadonly else .connected
  let tell (c : Connection) (event : SessionEvent) (id : SessionId) : Connection :=
    c.publish (.session event id (some s.endpoint))
  let c := { c with
    endpoint := some s.endpoint
    sessionTimeout := some s.timeout
    sessionId := some s.id
    roster := c.roster.markConnected s.endpoint }.record (.opened s)
  match search.resumes, search.offer with
  | false, _ => tell (c.transition status) .created s.id
  | true, none => tell (c.transition status) .reopen s.id
  | true, some old =>
    if old = s.id then c.transition status
    else tell ((tell c .closed old).transition status) .reopen s.id

/-- Forgets the session, if there is one, and tells that it is over. -/
def endSession (c : Connection) : Connection :=
  match c.sessionId with
  | none => c
  | some id => { c with sessionId := none }.publish (.session .closed id c.endpoint)

def sessionLost (c : Connection) (expired : Bool) : Connection :=
  let c := if expired then c.endSession else c
  { c with endpoint := none }.transition .notConnected

def finishClosed (c : Connection) : Connection :=
  { c.endSession with endpoint := none, sessionTimeout := none }.transition .closed

/-- Fails all packets that wait for a response. -/
def failPending (c : Connection) (f : Failure) : Connection :=
  { c.failAll (c.pending.map (·.2)) f with pending := [] }

def failRetry (c : Connection) (f : Failure) : Connection :=
  { c.failAll c.retry f with retry := [] }

/-- Fails all packets that have not been taken up. -/
def failOutgoing (c : Connection) (f : Failure) : Connection :=
  { c.failAll c.outgoing f with outgoing := [] }

/-- Closes the connection for good; no packet is left behind. -/
def closeOut (c : Connection) : Connection :=
  let c := c.finishClosed
  let c := c.failPending .connectionClosed
  let c := c.failRetry .connectionClosed
  let c := c.failOutgoing .connectionClosed
  { c with carrier := .finished }

theorem closeOut_drained (c : Connection) :
    c.closeOut.pending = [] ∧ c.closeOut.retry = [] ∧ c.closeOut.outgoing = [] := by
  simp [closeOut, failOutgoing, failRetry, failPending]

theorem status_finishClosed (c : Connection) : c.finishClosed.status = .closed := by
  simp [finishClosed, status_transition]

theorem status_closeOut (c : Connection) : c.closeOut.status = .closed := by
  simp [closeOut, failOutgoing, failRetry, failPending, status_finishClosed]

theorem carrier_closeOut (c : Connection) : c.closeOut.carrier = .finished := rfl

/-- Breaks off the session and begins to look for another. -/
def sessionFailed (c : Connection) (f : Failure) : Connection :=
  let expired : Bool := f = .sessionExpired
  let c := (c.record (.lost f)).failPending f
  let c := c.sessionLost expired
  let offer := if expired then none else c.sessionId
  { c with carrier := .seeking (.resuming c.settings offer) }

/-- Gives up the first search. -/
def connectFailed (c : Connection) (f : Failure) : Connection :=
  let c := if c.status = .authFailed then c else c.transition .notConnected
  let c := c.failOutgoing f.ofConnect
  { c with carrier := .free }.returnFirst (.error f)

end ServiceDirectory.Connection
