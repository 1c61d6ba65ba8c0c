import ServiceDirectory.Roster
import ServiceDirectory.Settings
import ServiceDirectory.Frame.Description

/-! The search for a session: attempts on one endpoint after the other, with a pause before each
repetition, until a handshake succeeds, the attempts are used up, or the deadline of the caller
comes too near. Endpoints that turned down the credentials are not tried again. -/
namespace ServiceDirectory

/-- A session as the handshake opened it. -/
structure Session where
  endpoint : Endpoint
  id : SessionId
  timeout : Nat
  readOnly : Bool
  deriving DecidableEq, Inhabited

inductive Search.Phase where
  /-- Attempt `attempt` comes next. -/
  | ready
  /-- The pause before the attempt ends at this time. -/
  | pausing (stop : Nat)
  /-- An endpoint has to be chosen; first they are counted. -/
  | choosing
  /-- So many endpoints may still be drawn. -/
  | drawing (left : Nat)
  /-- The handshake on this endpoint has until this time. -/
  | handshake (endpoint : Endpoint) (stop : Nat)
  deriving DecidableEq, Inhabited

structure Search where
  /-- Whether a session has been lost before. -/
  resumes : Bool
  /-- The most time that one attempt gets. -/
  attemptTimeout : Nat
  deadline : Option Nat
  /-- The session to take up again. -/
  offer : Option SessionId
  /-- How many attempts have ended. -/
  attempt : Nat := 0
  lastEndpoint : Option Endpoint := none
  lastError : Option Failure := none
  phase : Search.Phase := .ready
  deriving DecidableEq, Inhabited

/-- What a step of a search leads to. -/
inductive Search.Progress where
  | continues (s : Search)
  | failed (f : Failure)
  | stopped

namespace Search

/-- The caller's search, with a deadline for the whole of it. -/
def initial (now timeout : Nat) : Search :=
  { resumes := false, attemptTimeout := timeout, deadline := some (now + timeout), offer := none }

/-- The search after the loss of a session. -/
def resuming (settings : Settings) (offer : Option SessionId) : Search :=
  { resumes := true, attemptTimeout := settings.connectTimeout, deadline := none, offer }

def allRejected : Failure := .connectionLoss "every endpoint rejected authentication"

def timeoutMs (s : Search) : UInt64 := Time.toMillis s.attemptTimeout

/-- The failure when the attempts or the endpoints are used up. -/
def exhausted (s : Search) : Failure := s.lastError.getD allRejected

/-- The failure when the deadline ends the search. -/
def deadlineFailure (s : Search) : Failure :=
  match s.lastEndpoint, s.lastError with
  | _, some (.connectTimeout e ms) => .connectTimeout e ms
  | some e, _ => .connectTimeout e s.timeoutMs
  | none, _ => s.exhausted

/-- Begins the next attempt, or its pause. -/
def begin (s : Search) (settings : Settings) (now : Nat) (shutdown : Bool) : Progress :=
  if settings.retry.totalAttempts ≤ s.attempt then .failed s.exhausted
  else if shutdown then .stopped
  else if s.attempt = 0 then .continues { s with phase := .choosing }
  else
    let stop := now + settings.retry.backoff s.attempt
    if s.deadline.any (· ≤ stop) then .failed s.deadlineFailure
    else .continues { s with phase := .pausing stop }

/-- The time that an attempt gets. -/
def budget (s : Search) (now : Nat) : Nat :=
  match s.deadline with
  | some d => min s.attemptTimeout (d - now)
  | none => s.attemptTimeout

/-- Begins a handshake on an endpoint. -/
def face (s : Search) (e : Endpoint) (now : Nat) : Search :=
  { s with lastEndpoint := some e, phase := .handshake e (now + s.budget now) }

/-- Ends an attempt. -/
def giveUp (s : Search) (f : Failure) : Search :=
  { s with attempt := s.attempt + 1, lastError := some f, phase := .ready }

/-- The frame that opens a handshake. -/
def request (s : Search) (settings : Settings) : ConnectRequest :=
  { protocolVersion, sessionId := s.offer, sessionTimeoutMs := settings.sessionTimeoutMs,
    credentials := settings.credentials, readOnlyAllowed := settings.readOnlyAllowed }

end Search

/-- What a frame in answer to a handshake means: a session, or the end of the attempt. A session
timeout of zero leaves the one that was asked for. -/
def Session.ofAnswer (e : Endpoint) (settings : Settings) : ServerFrame → Except Failure Session
  | .connected r =>
    let ms := if r.sessionTimeoutMs = 0 then settings.sessionTimeoutMs else r.sessionTimeoutMs
    .ok ⟨e, r.sessionId, Time.ofMillis ms.toNat, r.readOnly⟩
  | .authFailed reason => .error (.authFailed e reason)
  | f => .error (.protocol ("unexpected frame during handshake: " ++ f.description))

/-- The failure that packets are told which waited for a first session in vain. -/
def Failure.ofConnect : Failure → Failure
  | .connectTimeout e ms => .connectTimeout e ms
  | f => .connectionLoss f.message

end ServiceDirectory
