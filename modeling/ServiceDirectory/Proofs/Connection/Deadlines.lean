import Mathlib.Algebra.GroupWithZero.Nat
import ServiceDirectory.Proofs.Connection.Choices
import ServiceDirectory.Proofs.Connection.Clocks
import ServiceDirectory.Proofs.Connection.Failover
import ServiceDirectory.Proofs.Connection.Inbound

/-! A search with a deadline, whatever the servers do and whoever disturbs it. Time does not pass by
the end of a pause or of a handshake, nor while the search has something to do. Then the search is
over by its deadline, after a bounded number of steps and attempts, and none but the first attempt
begins at the deadline. When it ends because the next attempt would come too late, it tells so as a
timeout on an endpoint that it tried: either the last attempt timed out, or another failure gives
way to a timeout. -/
namespace ServiceDirectory

/-! ### Answers to a handshake -/

theorem Framing.isTimeout_failure (doing : String) (fault : StreamFault) :
    (failure doing fault).isTimeout = false := by
  unfold failure
  split <;> rfl

theorem Framing.isTimeout_of_send {o : Outlet} {b : ByteArray} {f : Failure}
    (h : (send o b).1 = .error f) : f.isTimeout = false := by
  unfold send at h
  split at h
  · obtain rfl := Except.error.inj h
    rfl
  split at h
  · obtain rfl := Except.error.inj h
    exact isTimeout_failure _ _
  split at h
  · obtain rfl := Except.error.inj h
    exact isTimeout_failure _ _
  split at h
  · obtain rfl := Except.error.inj h
    exact isTimeout_failure _ _
  · cases h

theorem Framing.isTimeout_of_receive {i : Inlet} {f : Failure} (h : (receive i).1 = .error f) :
    f.isTimeout = false := by
  unfold receive at h
  split at h
  · obtain rfl := Except.error.inj h
    exact isTimeout_failure _ _
  split at h
  · obtain rfl := Except.error.inj h
    rfl
  split at h
  · obtain rfl := Except.error.inj h
    exact isTimeout_failure _ _
  · cases h

theorem ServerFrame.isTimeout_of_receive {i : Inlet} {f : Failure}
    (h : (receive i).1 = .error f) : f.isTimeout = false := by
  unfold receive at h
  split at h
  · rename_i lost
    obtain rfl := Except.error.inj h
    exact Framing.isTimeout_of_receive (congrArg Prod.fst lost)
  · obtain ⟨detail, rfl⟩ := decode_error h
    rfl

/-- What can come of a handshake that begins with a request, unless it takes too long: the
connection to the server cannot be made or set up, the request cannot be written, or the first
frame is read or not. -/
inductive ConnectRequest.Outcome (request : ConnectRequest) :
    Except Failure ServerFrame → Prop where
  | unlinked (text : String) : Outcome request (.error (.connectionLoss text))
  | unready (fault : StreamFault) : Outcome request (.error (.stream fault))
  | unsent {o : Outlet} {f : Failure}
    (fails : (Framing.send o (ClientFrame.connect request).encode).1 = .error f) :
    Outcome request (.error f)
  | heard (i : Inlet) : Outcome request (ServerFrame.receive i).1

theorem ConnectRequest.Outcome.isTimeout {request : ConnectRequest}
    {r : Except Failure ServerFrame} (h : request.Outcome r) {f : Failure} (fails : r = .error f) :
    f.isTimeout = false := by
  cases h with
  | unlinked text => cases fails; rfl
  | unready fault => cases fails; rfl
  | unsent unsent =>
    cases fails
    exact Framing.isTimeout_of_send unsent
  | heard i => exact ServerFrame.isTimeout_of_receive fails

/-- No server, and no network, makes a failed handshake look like one that took too long. -/
theorem ConnectRequest.Outcome.isTimeout_of_ofAnswer {request : ConnectRequest}
    {r : Except Failure ServerFrame} (h : request.Outcome r) {e : Endpoint} {settings : Settings}
    {f : Failure} (fails : r >>= Session.ofAnswer e settings = .error f) : f.isTimeout = false := by
  cases r with
  | error g =>
    obtain rfl := Except.error.inj fails
    exact h.isTimeout rfl
  | ok frame =>
    cases frame with
    | connected => cases fails
    | authFailed | response | notification | pong | sessionExpired =>
      obtain rfl := Except.error.inj fails
      rfl

/-! ### What a search remembers -/

namespace Search

/-- What a search remembers, with the endpoints that it tried, the latest first. A timeout among its
failures is the caller's, on an endpoint that was tried. -/
structure Recalls (timeout d : Nat) (tried : List Endpoint) (s : Search) : Prop where
  attemptTimeout : s.attemptTimeout = timeout
  deadline : s.deadline = some d
  tries : tried.length = s.tries
  last : s.lastEndpoint = tried.head?
  faced : ∀ e ∈ s.facing?, e ∈ tried
  failure : ∀ e ms, s.lastError = some (.connectTimeout e ms) →
    e ∈ tried ∧ ms = Time.toMillis timeout

/-- Whether a search is in time: a pause ends before the deadline, a handshake not behind it, and
only the first endpoint may be chosen at the deadline. -/
def InTime (d now : Nat) (s : Search) : Prop :=
  match s.phase with
  | .ready => now ≤ d
  | .pausing stop => now ≤ stop ∧ stop < d
  | .choosing | .drawing _ => now ≤ d ∧ (s.attempt ≠ 0 → now < d)
  | .handshake _ stop => now ≤ stop ∧ stop ≤ d

variable {timeout d now : Nat} {tried : List Endpoint} {s : Search}

theorem InTime.now_le (h : s.InTime d now) : now ≤ d := by
  unfold InTime at h
  split at h <;> omega

theorem deadlineFailure_of_timeout {e : Endpoint} {ms : UInt64}
    (timedOut : s.lastError = some (.connectTimeout e ms)) :
    s.deadlineFailure = .connectTimeout e ms := by
  rw [deadlineFailure, timedOut]

theorem deadlineFailure_of_endpoint {e : Endpoint} (last : s.lastEndpoint = some e)
    (other : ∀ e ms, s.lastError ≠ some (.connectTimeout e ms)) :
    s.deadlineFailure = .connectTimeout e s.timeoutMs := by
  rw [deadlineFailure, last]
  cases error : s.lastError with
  | none => rfl
  | some f =>
    cases f with
    | connectTimeout e ms => exact absurd error (other e ms)
    | _ => rfl

theorem Recalls.exists_deadlineFailure (h : s.Recalls timeout d tried) (later : s.attempt ≠ 0) :
    ∃ e ∈ tried, s.deadlineFailure = .connectTimeout e (Time.toMillis timeout) := by
  by_cases timedOut : ∃ e ms, s.lastError = some (.connectTimeout e ms)
  · obtain ⟨e, ms, same⟩ := timedOut
    obtain ⟨member, rfl⟩ := h.failure e ms same
    exact ⟨e, member, deadlineFailure_of_timeout same⟩
  · have positive : 0 < tried.length :=
      h.tries ▸ Nat.lt_of_lt_of_le (Nat.pos_of_ne_zero later) (Nat.le_add_right _ _)
    obtain ⟨e, rest, rfl⟩ := List.exists_cons_of_length_pos positive
    refine ⟨e, List.mem_cons_self, ?_⟩
    rw [deadlineFailure_of_endpoint h.last fun e ms same => timedOut ⟨e, ms, same⟩, timeoutMs,
      h.attemptTimeout]

theorem Recalls.waits (h : s.Recalls timeout d tried) (before : s.facing? = none) {phase : Phase}
    (after : { s with phase }.facing? = none) : { s with phase }.Recalls timeout d tried where
  attemptTimeout := h.attemptTimeout
  deadline := h.deadline
  tries := by rw [h.tries, tries_of_facing_none before, tries_of_facing_none after]
  last := h.last
  faced := by rw [after]; exact fun e he => by cases he
  failure := h.failure

theorem Recalls.faces (h : s.Recalls timeout d tried) (before : s.facing? = none)
    (e : Endpoint) (now : Nat) : (s.face e now).Recalls timeout d (e :: tried) where
  attemptTimeout := h.attemptTimeout
  deadline := h.deadline
  tries := by rw [List.length_cons, h.tries, tries_of_facing_none before]; rfl
  last := rfl
  faced x hx := Option.some.inj hx ▸ List.mem_cons_self
  failure x ms failed := by
    obtain ⟨member, same⟩ := h.failure x ms failed
    exact ⟨List.mem_cons_of_mem e member, same⟩

theorem Recalls.giveUp (h : s.Recalls timeout d tried) {e : Endpoint} {stop : Nat}
    (shakes : s.phase = .handshake e stop) {f : Failure}
    (own : ∀ x ms, f = .connectTimeout x ms → x = e ∧ ms = s.timeoutMs) :
    (s.giveUp f).Recalls timeout d tried where
  attemptTimeout := h.attemptTimeout
  deadline := h.deadline
  tries := by rw [h.tries, tries_of_handshake shakes]; rfl
  last := h.last
  faced x hx := by cases hx
  failure x ms failed := by
    obtain ⟨rfl, rfl⟩ := own x ms (Option.some.inj failed)
    refine ⟨h.faced x (by rw [facing?, shakes]; rfl), ?_⟩
    rw [timeoutMs, h.attemptTimeout]

theorem begin_of_past {settings : Settings} (left : s.attempt < settings.retry.totalAttempts)
    (again : s.attempt ≠ 0) (deadline : s.deadline = some d) (past : d ≤ now) :
    s.begin settings now false = .failed s.deadlineFailure := by
  have late : s.deadline.any (· ≤ now + settings.retry.backoff s.attempt) = true := by
    rw [deadline]
    exact decide_eq_true (Nat.le_trans past (Nat.le_add_right _ _))
  rw [begin, if_neg (Nat.not_le_of_lt left), if_neg Bool.false_ne_true, if_neg again]
  exact if_pos late

theorem add_budget_le (deadline : s.deadline = some d) (early : now ≤ d) :
    now + s.budget now ≤ d := by
  have least : s.budget now ≤ d - now := by
    rw [budget, deadline]
    exact Nat.min_le_right _ _
  omega

end Search

namespace Connection

/-! ### The steps of a search in time -/

theorem calm_connectFailed (c : Connection) (f : Failure) :
    Calm { c with carrier := .free } (c.connectFailed f) := by
  obtain ⟨b, failed, same⟩ := Calm.overlooksSessions.connectFailed Calm.overlooksPackets c f
  rw [same]
  exact (failed.turns .free).trans (Calm.overlooksCalls.returnFirst _ _)

theorem calm_searchFailed (c : Connection) (s : Search) (f : Failure) :
    Calm { c with carrier := aftermath s } (c.searchFailed s f) := by
  unfold searchFailed aftermath
  split
  · exact c.calm_closeOut
  · exact c.calm_connectFailed f

theorem calm_searchStopped (c : Connection) (s : Search) :
    Calm { c with carrier := aftermath s } (c.searchStopped s) := by
  unfold searchStopped aftermath
  split
  · exact c.calm_closeOut
  · exact Calm.overlooksCalls.returnFirst _ _

theorem SearchStep.now {c c' : Connection} {s : Search} {a : Action} (m : SearchStep c s a c') :
    c'.now = c.now := by
  cases m with
  | begun | waited | counted | passedOver | chose => rfl
  | spent | deserted => exact (calm_searchFailed _ _ _).now
  | opened => exact (c.calm_openSession _ _).now
  | failed | timedOut => exact (c.calm_attemptFailed _ _ _).now
  | stopped => exact (c.calm_searchStopped _).now

theorem now_of_step {c c' : Connection} {s : Search} {a : Action} (seeking : c.carrier = .seeking s)
    (taken : c.step a = some c') :
    (∃ time, a = .advance time ∧ c'.now = c.now + time) ∨ c'.now = c.now := by
  cases stepped_of_step taken with
  | passed time => exact .inl ⟨time, rfl, rfl⟩
  | listed endpoints => exact .inr (c.calm_updateRoster endpoints).now
  | listened | unlistened | letGo | called | asked => exact .inr rfl
  | sent actor m => exact .inr m.calm.now
  | call m =>
    cases m with
    | sought row alive free => cases seeking.symm.trans free
    | turnedAway => exact .inr (Calm.overlooksCalls.returnFirst c _).now
    | closed row idle | gone deserted idle => exact absurd seeking (idle.1 s)
    | left => exact .inr rfl
  | searched _ m => exact .inr m.now
  | wrote driving | used driving => cases seeking.symm.trans driving
  | delivered m => exact .inr m.calm.now

/-- Whether an action is in time: none makes time pass by what the carrier has to do, and what is
heard of a handshake can come of it. -/
def Prompt (c : Connection) : Action → Prop
  | .advance time => time = 0 ∨ ∃ stop ∈ c.due?, c.now + time ≤ stop
  | .answer r => ∀ s, c.carrier = .seeking s → (s.request c.settings).Outcome r
  | _ => True

def counts? (c : Connection) : Action → Option Nat
  | .seek =>
    match c.carrier with
    | .seeking s => if s.phase = .choosing then some c.roster.size else none
    | _ => none
  | _ => none

/-- What a connection can come to by prompt actions while it looks for a session, with the sizes of
the roster whenever its endpoints were counted and the number of steps that the search takes. -/
inductive Timely (c : Connection) : List Nat → Nat → Connection → Prop where
  | start : Timely c [] 0 c
  | step {counted n a b b' s} (before : Timely c counted n b) (prompt : Prompt b a)
    (taken : b.step a = some b') (seeking : b'.carrier = .seeking s) :
    Timely c ((b.counts? a).toList ++ counted) (n + if a.isSearch then 1 else 0) b'

/-- How a search with a deadline is over: with a session on an endpoint that it tried, because the
connection is to be closed, with its attempts used up, with as many endpoints drawn as were counted,
all in vain, or because the pause before the next attempt would reach the deadline. In that case the
failure is a timeout of the caller's on an endpoint that was tried. -/
inductive Concluded (timeout d : Nat) (tried : List Endpoint) (b : Connection) (s : Search) :
    Connection → Prop where
  | opened {session} (member : session.endpoint ∈ tried) :
    Concluded timeout d tried b s (b.openSession s session)
  | stopped (asked : b.shutdown = true) : Concluded timeout d tried b s (b.searchStopped s)
  | spent (ready : s.phase = .ready) (none : b.settings.retry.totalAttempts ≤ s.attempt) :
    Concluded timeout d tried b s (b.searchFailed s s.exhausted)
  | deserted {a replaced drawn} (choice : Choice a replaced drawn b)
    (all : drawn.length = a.roster.size) (refused : ∀ e ∈ drawn, e ∈ b.rejected) :
    Concluded timeout d tried b s (b.searchFailed s s.exhausted)
  | late {e} (ready : s.phase = .ready) (left : s.attempt < b.settings.retry.totalAttempts)
    (again : s.attempt ≠ 0) (late : d ≤ b.now + b.settings.retry.backoff s.attempt)
    (member : e ∈ tried) :
    Concluded timeout d tried b s
      (b.searchFailed s (.connectTimeout e (Time.toMillis timeout)))

structure Course (c : Connection) (timeout d : Nat) (counted : List Nat) (n : Nat)
    (tried : List Endpoint) (b : Connection) (s : Search) : Prop where
  seeking : b.carrier = .seeking s
  settings : b.settings = c.settings
  attempts : b.attempts = tried ++ c.attempts
  recalls : s.Recalls timeout d tried
  inTime : s.InTime d b.now
  choices : counted.length = s.choices
  pace : s.Pace c.settings.retry.totalAttempts n counted.sum

theorem counts?_of_other {a : Action} (c : Connection) (other : a.isSearch = false) :
    c.counts? a = none := by
  cases a <;> first | rfl | cases other

theorem counts?_seek {c : Connection} {s : Search} (seeking : c.carrier = .seeking s) :
    c.counts? .seek = if s.phase = .choosing then some c.roster.size else none := by
  rw [counts?, seeking]

theorem Timely.chooses {c b : Connection} {counted : List Nat} {n : Nat}
    (h : Timely c counted n b) (begun : Chooses c) : Chooses b := by
  induction h with
  | start => exact begun
  | step before prompt taken seeking ih => exact ih.step taken

theorem inTime_of_step {b b' : Connection} {s : Search} {d : Nat} {a : Action}
    (h : s.InTime d b.now) (seeking : b.carrier = .seeking s) (prompt : Prompt b a)
    (taken : b.step a = some b') : s.InTime d b'.now := by
  rcases now_of_step seeking taken with ⟨time, rfl, now⟩ | now
  · rw [now]
    rcases prompt with rfl | ⟨stop, due, early⟩
    · exact h
    · simp only [due?, seeking] at due
      unfold Search.InTime at h ⊢
      cases phase : s.phase with
      | ready | choosing | drawing => rw [phase] at due; cases due
      | pausing stop' | handshake e stop' =>
        rw [phase] at due h
        obtain rfl := Option.some.inj due
        exact ⟨early, h.2⟩
  · rw [now]
    exact h

namespace Concluded

variable {timeout d : Nat} {tried : List Endpoint} {b b' : Connection} {s : Search}

theorem attempts (h : Concluded timeout d tried b s b') : b'.attempts = b.attempts := by
  cases h with
  | opened => exact (b.apart_openSession _ _).attempts
  | stopped => exact (b.apart_searchStopped s).attempts
  | spent | deserted | late => exact (apart_searchFailed _ _ _).attempts

theorem away (h : Concluded timeout d tried b s b') (s' : Search) :
    b'.carrier ≠ .seeking s' := by
  cases h with
  | opened => exact fun seeking => by cases (b.calm_openSession _ _).carrier.symm.trans seeking
  | stopped => exact (b.calm_searchStopped s).carrier ▸ aftermath_ne_seeking s s'
  | spent | deserted | late =>
    exact (calm_searchFailed _ _ _).carrier ▸ aftermath_ne_seeking s s'

end Concluded

namespace Course

variable {c b b' : Connection} {timeout d n : Nat} {counted : List Nat} {tried : List Endpoint}
  {s : Search}

theorem start {resumes : Bool} {offer : Option SessionId}
    (seeking : c.carrier =
      .seeking { resumes, attemptTimeout := timeout, deadline := some d, offer })
    (early : c.now ≤ d) :
    Course c timeout d [] 0 [] c
      { resumes, attemptTimeout := timeout, deadline := some d, offer } where
  seeking := seeking
  settings := rfl
  attempts := rfl
  recalls := ⟨rfl, rfl, rfl, rfl, (fun e he => by cases he), fun e ms failed => by cases failed⟩
  inTime := early
  choices := rfl
  pace := ⟨Nat.zero_le _, Nat.zero_le _⟩

theorem stays {roster : Roster} {shutdown : Bool} (h : Course c timeout d counted n tried b s)
    (q : Apart { b with roster, shutdown } b')
    (inTime : s.InTime d b'.now) : Course c timeout d counted n tried b' s where
  seeking := pursuit_eq_seeking.mp (q.pursuit.trans (pursuit_eq_seeking.mpr h.seeking))
  settings := q.settings.trans h.settings
  attempts := q.attempts.trans h.attempts
  recalls := h.recalls
  inTime := inTime
  choices := h.choices
  pace := h.pace

theorem waits {roster : Roster} {phase : Search.Phase} {counted' : List Nat}
    (h : Course c timeout d counted n tried b s)
    (before : s.facing? = none) (after : { s with phase }.facing? = none)
    (inTime : { s with phase }.InTime d b.now)
    (choices : counted'.length = { s with phase }.choices)
    (pace : { s with phase }.Pace c.settings.retry.totalAttempts (n + 1) counted'.sum) :
    Course c timeout d counted' (n + 1) tried
      { b with roster, carrier := .seeking { s with phase } } { s with phase } where
  seeking := rfl
  settings := h.settings
  attempts := h.attempts
  recalls := h.recalls.waits before after
  inTime := inTime
  choices := choices
  pace := pace

theorem counts (h : Course c timeout d counted n tried b s) (choosing : s.phase = .choosing) :
    Course c timeout d (b.roster.size :: counted) (n + 1) tried
      { b with carrier := .seeking { s with phase := .drawing b.roster.size } }
      { s with phase := .drawing b.roster.size } := by
  have inTime := h.inTime
  have choices := h.choices
  rw [Search.InTime, choosing] at inTime
  rw [Search.choices, choosing] at choices
  refine h.waits (by rw [Search.facing?, choosing]) rfl inTime (congrArg (· + 1) choices) ?_
  rw [List.sum_cons, Nat.add_comm b.roster.size]
  exact h.pace.counts choosing b.roster.size

section

variable {left : Nat} (h : Course c timeout d counted n tried b s)
  (drawing : s.phase = .drawing (left + 1))
include h drawing

theorem draws (roster : Roster) :
    Course c timeout d counted (n + 1) tried
      { b with roster, carrier := .seeking { s with phase := .drawing left } }
      { s with phase := .drawing left } := by
  have inTime := h.inTime
  have choices := h.choices
  rw [Search.InTime, drawing] at inTime
  rw [Search.choices, drawing] at choices
  exact h.waits (by rw [Search.facing?, drawing]) rfl inTime choices (h.pace.draws drawing)

theorem faces (e : Endpoint) (roster : Roster) :
    Course c timeout d counted (n + 1) (e :: tried) ({ b with
      roster
      carrier := .seeking (s.face e b.now) }.record (.attempted e s.offer)) (s.face e b.now) where
  seeking := rfl
  settings := h.settings
  attempts := congrArg (e :: ·) h.attempts
  recalls := h.recalls.faces (by rw [Search.facing?, drawing]) e _
  inTime := ⟨Nat.le_add_right _ _, Search.add_budget_le h.recalls.deadline h.inTime.now_le⟩
  choices := by
    rw [h.choices, Search.choices, drawing]
    rfl
  pace := h.pace.faces drawing e b.now

theorem lt_of_drawing (again : tried ≠ []) : b.now < d := by
  have inTime := h.inTime
  rw [Search.InTime, drawing] at inTime
  refine inTime.2 fun first => again ?_
  have tries := h.recalls.tries
  rw [Search.tries_of_facing_none (by rw [Search.facing?, drawing]), first] at tries
  exact List.eq_nil_of_length_eq_zero tries

end

theorem givesUp (h : Course c timeout d counted n tried b s) {e : Endpoint} {stop : Nat}
    (shakes : s.phase = .handshake e stop) {f : Failure}
    (own : ∀ x ms, f = .connectTimeout x ms → x = e ∧ ms = s.timeoutMs) :
    Course c timeout d counted (n + 1) tried (b.attemptFailed s e f) (s.giveUp f) where
  seeking := (b.calm_attemptFailed s e f).carrier
  settings := (b.calm_attemptFailed s e f).settings.trans h.settings
  attempts := (b.attempts_attemptFailed s e f).trans h.attempts
  recalls := h.recalls.giveUp shakes own
  inTime := by
    rw [(b.calm_attemptFailed s e f).now]
    exact h.inTime.now_le
  choices := by
    rw [h.choices, Search.choices, shakes]
    rfl
  pace := h.pace.givesUp shakes f

theorem begins {s' : Search} (h : Course c timeout d counted n tried b s) (ready : s.phase = .ready)
    (begins : s.begin b.settings b.now b.shutdown = .continues s') :
    Course c timeout d counted (n + 1) tried { b with carrier := .seeking s' } s' := by
  have facing : s.facing? = none := by rw [Search.facing?, ready]
  have choices := h.choices
  have early := h.inTime.now_le
  rw [Search.choices, ready] at choices
  rw [h.settings] at begins
  cases begins ▸ s.begun_begin c.settings b.now b.shutdown with
  | chooses left awake first =>
    exact h.waits facing rfl ⟨early, fun again => absurd first again⟩ choices
      (h.pace.chooses ready left)
  | pauses left awake again ends =>
    exact h.waits facing rfl ⟨Nat.le_add_right _ _, ends d h.recalls.deadline⟩ choices
      (h.pace.pauses ready left _)

theorem awakes (h : Course c timeout d counted n tried b s) {stop : Nat}
    (pausing : s.phase = .pausing stop) (past : stop ≤ b.now) :
    Course c timeout d counted (n + 1) tried
      { b with carrier := .seeking { s with phase := .choosing } }
      { s with phase := .choosing } := by
  have inTime := h.inTime
  have choices := h.choices
  rw [Search.InTime, pausing] at inTime
  rw [Search.choices, pausing] at choices
  -- Time has not passed by the end of the pause, which comes before the deadline.
  have before : b.now < d := by
    rw [Nat.le_antisymm inTime.1 past]
    exact inTime.2
  exact h.waits (by rw [Search.facing?, pausing]) rfl ⟨Nat.le_of_lt before, fun _ => before⟩ choices
    (h.pace.awakes pausing)

theorem fails {f : Failure} (h : Course c timeout d counted n tried b s) (ready : s.phase = .ready)
    (begins : s.begin b.settings b.now b.shutdown = .failed f) :
    Concluded timeout d tried b s (b.searchFailed s f) := by
  cases begins ▸ s.begun_begin b.settings b.now b.shutdown with
  | spent none => exact .spent ready none
  | late left again deadline late =>
    obtain rfl := Option.some.inj (h.recalls.deadline.symm.trans deadline)
    obtain ⟨e, member, told⟩ := h.recalls.exists_deadlineFailure again
    rw [told]
    exact .late ready left again late member

theorem deserts (h : Course c timeout d counted n tried b s) (chooses : Chooses b)
    (none : s.phase = .drawing 0) :
    Concluded timeout d tried b s (b.searchFailed s s.exhausted) := by
  obtain ⟨a, replaced, drawn, choice, count⟩ := chooses s 0 h.seeking none
  obtain ⟨_, -, -, stands⟩ := choice.exists_search
  exact .deserted choice ((Nat.zero_add _).symm.trans count) (stands.rejected ▸ stands.refused)

theorem step (h : Course c timeout d counted n tried b s) (chooses : Chooses b) {a : Action}
    (prompt : Prompt b a) (taken : b.step a = some b') :
    (∃ s', Course c timeout d ((b.counts? a).toList ++ counted)
      (n + if a.isSearch then 1 else 0) tried b' s') ∨
    (∃ s' e, Course c timeout d ((b.counts? a).toList ++ counted)
      (n + if a.isSearch then 1 else 0) (e :: tried) b' s' ∧ (tried ≠ [] → b.now < d)) ∨
    Concluded timeout d tried b s b' := by
  have same {s' : Search} (seeking : b.carrier = .seeking s') : s = s' :=
    Carrier.seeking.inj (h.seeking.symm.trans seeking)
  have inTime := inTime_of_step h.inTime h.seeking prompt taken
  have counts := counts?_seek h.seeking
  cases stride_of_step taken with
  | apart other q =>
    rw [other, counts?_of_other b other]
    exact .inl ⟨s, h.stays q inTime⟩
  | replaced update => exact .inl ⟨s, h.stays (.refl _) inTime⟩
  | asked cause q =>
    refine .inl ⟨s, ?_⟩
    rcases cause with rfl | rfl
    · exact h.stays q inTime
    · exact h.stays q inTime
  | sought idle timeout => cases h.seeking.symm.trans idle
  | lost other driving q => cases h.seeking.symm.trans driving
  | ended other away q => exact absurd h.seeking (away s)
  | begun seeking ready begins =>
    obtain rfl := same seeking
    rw [counts, ready]
    exact .inl ⟨_, h.begins ready begins⟩
  | spent seeking ready begins =>
    obtain rfl := same seeking
    exact .inr (.inr (h.fails ready begins))
  | waited seeking pausing past =>
    obtain rfl := same seeking
    rw [counts, pausing]
    exact .inl ⟨_, h.awakes pausing past⟩
  | counted seeking choosing =>
    obtain rfl := same seeking
    rw [counts, if_pos choosing]
    exact .inl ⟨_, h.counts choosing⟩
  | passedOver seeking drawing refused =>
    obtain rfl := same seeking
    rw [counts, drawing]
    exact .inl ⟨_, h.draws drawing _⟩
  | chose seeking drawing accepted =>
    obtain rfl := same seeking
    rw [counts, drawing]
    exact .inr (.inl ⟨_, _, h.faces drawing _ _, h.lt_of_drawing drawing⟩)
  | deserted seeking none =>
    obtain rfl := same seeking
    exact .inr (.inr (h.deserts chooses none))
  | @opened _ e _ _ session seeking shakes accepts =>
    obtain rfl := same seeking
    refine .inr (.inr (.opened ?_))
    rw [Session.endpoint_ofAnswer accepts]
    exact h.recalls.faced e (by rw [Search.facing?, shakes]; rfl)
  | failed seeking shakes fails =>
    obtain rfl := same seeking
    refine .inl ⟨_, h.givesUp shakes fun x ms timedOut => ?_⟩
    have other := (prompt s h.seeking).isTimeout_of_ofAnswer fails
    rw [timedOut] at other
    cases other
  | timedOut seeking shakes past =>
    obtain rfl := same seeking
    refine .inl ⟨_, h.givesUp shakes fun x ms timedOut => ?_⟩
    obtain ⟨rfl, rfl⟩ := Failure.connectTimeout.inj timedOut
    exact ⟨rfl, rfl⟩
  | stopped stops seeking asked =>
    obtain rfl := same seeking
    exact .inr (.inr (.stopped asked))

theorem of_timely (h : Course c timeout d [] 0 [] c s) (begun : Chooses c)
    (timely : Timely c counted n b) : ∃ tried s, Course c timeout d counted n tried b s := by
  induction timely with
  | start => exact ⟨[], s, h⟩
  | step before prompt taken seeking ih =>
    obtain ⟨tried, s, course⟩ := ih
    rcases course.step (before.chooses begun) prompt taken with
      ⟨s', goes⟩ | ⟨s', e, goes, -⟩ | concluded
    · exact ⟨tried, s', goes⟩
    · exact ⟨e :: tried, s', goes⟩
    · exact absurd seeking (concluded.away _)

/-- As time passes the search can always take another step, even if no server answers. -/
theorem exists_step (h : Course c timeout d counted n tried b s) : ∃ time a b₁ b',
    Prompt b (.advance time) ∧ b.step (.advance time) = some b₁ ∧
      (a = .seek ∨ a = .timeOut) ∧ b₁.step a = some b' := by
  have inTime := h.inTime
  unfold Search.InTime at inTime
  have waits {stop : Nat} (due : b.due? = some stop) (ahead : b.now ≤ stop) :
      Prompt b (.advance (stop - b.now)) :=
    .inr ⟨stop, due, Nat.le_of_eq (Nat.add_sub_cancel' ahead)⟩
  have seeks (time : Nat) (prompt : Prompt b (.advance time)) (rests : s.facing? = none)
      (past : ∀ stop, s.phase = .pausing stop → stop ≤ b.now + time) : ∃ time a b₁ b',
        Prompt b (.advance time) ∧ b.step (.advance time) = some b₁ ∧
          (a = .seek ∨ a = .timeOut) ∧ b₁.step a = some b' := by
    obtain ⟨b', taken⟩ := exists_seek (c := { b with now := b.now + time }) h.seeking rests past
    exact ⟨time, .seek, _, b', prompt, rfl, .inl rfl, taken⟩
  cases phase : s.phase with
  | ready | choosing | drawing =>
    refine seeks 0 (.inl rfl) (by rw [Search.facing?, phase]) fun stop pausing => ?_
    cases phase.symm.trans pausing
  | pausing stop =>
    rw [phase] at inTime
    have due : b.due? = some stop := by simp only [due?, h.seeking, phase]
    refine seeks _ (waits due inTime.1) (by rw [Search.facing?, phase]) fun stop' pausing => ?_
    obtain rfl := Search.Phase.pausing.inj (phase.symm.trans pausing)
    omega
  | handshake e stop =>
    rw [phase] at inTime
    have due : b.due? = some stop := by simp only [due?, h.seeking, phase]
    have past : stop ≤ b.now + (stop - b.now) := by omega
    have taken : ∃ b', timeOut { b with now := b.now + (stop - b.now) } = some b' := by
      simp only [timeOut, h.seeking, phase, if_pos past]
      exact ⟨_, rfl⟩
    obtain ⟨b', taken⟩ := taken
    exact ⟨_, .timeOut, _, b', waits due inTime.1, rfl, .inr rfl, taken⟩

theorem counted_le (h : Course c timeout d counted n tried b s) :
    counted.length ≤ c.settings.retry.totalAttempts :=
  h.choices ▸ Search.choices_le_of_rank_le h.pace.budget

theorem length_le (h : Course c timeout d counted n tried b s) :
    tried.length ≤ c.settings.retry.maxRetries + 1 := by
  have counted := h.counted_le
  rw [h.choices] at counted
  rw [h.recalls.tries]
  exact Nat.le_trans s.tries_le_choices (Nat.le_trans counted (Nat.min_le_left _ _))

end Course

/-- A search with a deadline, whatever the servers do, while time does not pass by what is due. Its
steps are bounded in number: there are four at most for every attempt, and one for every endpoint of
the rosters that are counted, one roster for an attempt. The next can always be taken, at the latest
when the pause or the handshake is due to end; it is never later than the deadline, not even when
the search is over.
There are no more attempts than the first one and the retries, and none but the first begins at the
deadline. Only in a few ways is the search over; if that is because the pause before the next
attempt would reach the deadline, then its failure is a timeout that tells the time that the caller
gave, and an endpoint that was tried. -/
theorem search_in_time {c : Connection} {resumes : Bool} {timeout d : Nat}
    {offer : Option SessionId}
    (seeking : c.carrier =
      .seeking { resumes, attemptTimeout := timeout, deadline := some d, offer })
    (early : c.now ≤ d) {counted : List Nat} {n : Nat} {b : Connection}
    (timely : Timely c counted n b) :
    n ≤ 4 * c.settings.retry.totalAttempts + counted.sum ∧
    counted.length ≤ c.settings.retry.totalAttempts ∧ b.now ≤ d ∧
    (∃ time a b₁ b', Prompt b (.advance time) ∧ b.step (.advance time) = some b₁ ∧
      (a = .seek ∨ a = .timeOut) ∧ b₁.step a = some b') ∧
    ∃ s tried, b.carrier = .seeking s ∧ b.attempts = tried ++ c.attempts ∧
      tried.length ≤ c.settings.retry.maxRetries + 1 ∧
      ∀ a b', Prompt b a → b.step a = some b' → b'.now ≤ d ∧
        (∃ tried', b'.attempts = tried' ++ c.attempts ∧
          tried'.length ≤ c.settings.retry.maxRetries + 1 ∧
          (tried' = tried ∨ (∃ e, tried' = e :: tried) ∧ (tried ≠ [] → b.now < d))) ∧
        ((∀ s', b'.carrier ≠ .seeking s') → Concluded timeout d tried b s b') := by
  have begun : Chooses c := fun s left seeking' drawing => by
    obtain rfl := Carrier.seeking.inj (seeking.symm.trans seeking')
    cases drawing
  obtain ⟨tried, s, course⟩ := (Course.start seeking early).of_timely begun timely
  refine ⟨course.pace.bound, course.counted_le, course.inTime.now_le, course.exists_step, s, tried,
    course.seeking, course.attempts, course.length_le, fun a b' prompt taken => ?_⟩
  refine ⟨(inTime_of_step course.inTime course.seeking prompt taken).now_le, ?_⟩
  rcases course.step (timely.chooses begun) prompt taken with
    ⟨s', goes⟩ | ⟨s', e, goes, ahead⟩ | concluded
  · exact ⟨⟨tried, goes.attempts, goes.length_le, .inl rfl⟩,
      fun away => absurd goes.seeking (away s')⟩
  · exact ⟨⟨e :: tried, goes.attempts, goes.length_le, .inr ⟨⟨e, rfl⟩, ahead⟩⟩,
      fun away => absurd goes.seeking (away s')⟩
  · exact ⟨⟨tried, concluded.attempts.trans course.attempts, course.length_le, .inl rfl⟩,
      fun _ => concluded⟩

/-- A server that never answers: the one attempt takes all the time, and no pause fits in any
more. -/
theorem search_in_time_stalled : ∃ (c b b' : Connection) (s : Search),
    c.carrier = .seeking (.initial 0 1000000) ∧ c.now ≤ 1000000 ∧ Timely c [1] 4 b ∧
    b.step .seek = some b' ∧ b'.now ≤ 1000000 ∧
    Concluded 1000000 1000000 [⟨"localhost", 7000⟩] b s b' ∧
    b' = b.searchFailed s (.connectTimeout ⟨"localhost", 7000⟩ 1) := by
  have outcome : ((start {} { endpoints := [⟨"localhost", 7000⟩], nonempty := by simp }).run
      [.callConnect 1000000, .enter]).bind (fun c =>
      (c.step .seek).bind fun b₁ => (b₁.step .seek).bind fun b₂ => (b₂.step .seek).bind fun b₃ =>
        (b₃.step (.advance 1000000)).bind fun b₄ => (b₄.step .timeOut).map fun b =>
          decide ((c.pursuit = .seeking (.initial 0 1000000) ∧ c.now = 0 ∧ c.attempts = []) ∧
            (b₁.pursuit = .seeking { Search.initial 0 1000000 with phase := .choosing } ∧
              b₂.pursuit = .seeking { Search.initial 0 1000000 with phase := .drawing 1 } ∧
              b₃.pursuit = .seeking { Search.initial 0 1000000 with
                lastEndpoint := some ⟨"localhost", 7000⟩
                phase := .handshake ⟨"localhost", 7000⟩ 1000000 } ∧
              b₃.now = 0 ∧ b₃.due? = some 1000000 ∧ b₄.pursuit = b₃.pursuit) ∧
            (c.counts? .seek = none ∧ b₁.counts? .seek = some 1 ∧ b₂.counts? .seek = none) ∧
            b.pursuit = .seeking { Search.initial 0 1000000 with
                attempt := 1
                lastEndpoint := some ⟨"localhost", 7000⟩
                lastError := some (.connectTimeout ⟨"localhost", 7000⟩ 1) } ∧
            b.now = 1000000 ∧ b.attempts = [⟨"localhost", 7000⟩] ∧ b.shutdown = false ∧
            b.settings.retry.totalAttempts = 4)) = some true := by decide +kernel
  obtain ⟨c, -, outcome⟩ := Option.bind_eq_some_iff.mp outcome
  obtain ⟨b₁, first, outcome⟩ := Option.bind_eq_some_iff.mp outcome
  obtain ⟨b₂, second, outcome⟩ := Option.bind_eq_some_iff.mp outcome
  obtain ⟨b₃, third, outcome⟩ := Option.bind_eq_some_iff.mp outcome
  obtain ⟨b₄, fourth, outcome⟩ := Option.bind_eq_some_iff.mp outcome
  obtain ⟨b, fifth, facts⟩ := Option.map_eq_some_iff.mp outcome
  obtain ⟨⟨begins, zero, none⟩, ⟨chooses, draws, shakes, now₃, due, waits⟩, ⟨count, count₁, count₂⟩,
    ends, now, tried, awake, total⟩ := of_decide_eq_true facts
  have chosen : Timely c [] 1 b₁ := by
    have step := Timely.step (a := .seek) .start trivial first (pursuit_eq_seeking.mp chooses)
    rwa [count] at step
  have counted : Timely c [1] 2 b₂ := by
    have step := Timely.step (a := .seek) chosen trivial second (pursuit_eq_seeking.mp draws)
    rwa [count₁] at step
  have begun : Timely c [1] 3 b₃ := by
    have step := Timely.step (a := .seek) counted trivial third (pursuit_eq_seeking.mp shakes)
    rwa [count₂] at step
  have waited : Timely c [1] 3 b₄ := by
    refine .step (a := .advance 1000000) begun (.inr ⟨1000000, due, ?_⟩) fourth
      (pursuit_eq_seeking.mp (waits.trans shakes))
    rw [now₃]
  have timely : Timely c [1] 4 b :=
    .step (a := .timeOut) waited trivial fifth (pursuit_eq_seeking.mp ends)
  have seeking := pursuit_eq_seeking.mp begins
  have early : c.now ≤ 1000000 := by omega
  obtain ⟨-, -, -, -, s, tried', same, attempts, -, bounded⟩ := search_in_time seeking early timely
  obtain rfl : tried' = [⟨"localhost", 7000⟩] := by simpa [none] using attempts.symm.trans tried
  have stands := Carrier.seeking.inj (same.symm.trans (pursuit_eq_seeking.mp ends))
  have failure : s.deadlineFailure = .connectTimeout ⟨"localhost", 7000⟩ 1 := by
    rw [stands]
    exact Search.deadlineFailure_of_timeout rfl
  have late : s.begin b.settings b.now b.shutdown =
      .failed (.connectTimeout ⟨"localhost", 7000⟩ 1) := by
    rw [awake, ← failure, stands]
    exact Search.begin_of_past (by rw [total]; decide) Nat.one_ne_zero rfl (Nat.le_of_eq now.symm)
  have ready : s.phase = .ready := by rw [stands]; rfl
  have taken : b.step .seek = some (b.searchFailed s (.connectTimeout ⟨"localhost", 7000⟩ 1)) := by
    simp only [step_seek, seek, same, ready, late, proceed]
  obtain ⟨inTime, -, concluded⟩ := bounded .seek _ trivial taken
  have rests := (b.calm_searchFailed s (.connectTimeout ⟨"localhost", 7000⟩ 1)).carrier
  exact ⟨c, b, _, s, seeking, early, timely, taken, inTime,
    concluded fun s' => rests ▸ aftermath_ne_seeking s s', rfl⟩

end Connection
end ServiceDirectory
