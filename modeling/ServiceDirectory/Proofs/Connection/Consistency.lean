import ServiceDirectory.Proofs.Connection.Backlog
import ServiceDirectory.Proofs.Connection.Closing

/-! What a connection records of its session. The endpoint is there exactly while it is connected;
the id, the timeout and the status are then those of the answer that opened the session. A
connection that is new or closed records nothing. Between two sessions the timeout of the old one
stays, which nobody reads. -/
namespace ServiceDirectory

def Session.granted (e : Endpoint) (settings : Settings) (r : ConnectResponse) : Session :=
  { endpoint := e
    id := r.sessionId
    timeout := Time.ofMillis
      (if r.sessionTimeoutMs = 0 then settings.sessionTimeoutMs else r.sessionTimeoutMs).toNat
    readOnly := r.readOnly }

theorem Session.ofAnswer_eq_ok_iff {e : Endpoint} {settings : Settings}
    {r : Except Failure ServerFrame} {s : Session} :
    r >>= Session.ofAnswer e settings = .ok s ↔
      ∃ answer, r = .ok (.connected answer) ∧ s = .granted e settings answer := by
  constructor
  · intro h
    cases r with
    | error f => cases h
    | ok frame =>
      cases frame with
      | connected answer => exact ⟨answer, rfl, (Except.ok.inj h).symm⟩
      | _ => cases h
  · rintro ⟨answer, rfl, rfl⟩
    rfl

theorem Session.status_eq_connectedReadonly_iff (s : Session) :
    s.status = .connectedReadonly ↔ s.readOnly = true := by
  unfold Session.status
  split <;> simp_all

namespace Connection

theorem records_sessionStarted (c : Connection) (s : Session) (search : Search) :
    (c.sessionStarted s search).endpoint = some s.endpoint ∧
      (c.sessionStarted s search).sessionTimeout = some s.timeout := by
  unfold sessionStarted
  simp only
  split
  · simp [publish, record]
  · simp [publish, record]
  · split
    · simp [record]
    · simp [publish, record]

theorem endpoint_sessionFailed (c : Connection) (f : Failure) :
    (c.sessionFailed f).endpoint = none := by
  simp [sessionFailed, sessionLost]

theorem records_connectFailed (c : Connection) (f : Failure) :
    (c.connectFailed f).endpoint = c.endpoint ∧
      (c.connectFailed f).sessionTimeout = c.sessionTimeout := by
  have told : (if c.status = .authFailed then c else c.transition .notConnected).endpoint =
      c.endpoint ∧ (if c.status = .authFailed then c
        else c.transition .notConnected).sessionTimeout = c.sessionTimeout := by
    split <;> simp
  have failed := Steady.overlooksPackets.failOutgoing
    (if c.status = .authFailed then c else c.transition .notConnected) f.ofConnect
  unfold connectFailed
  simp only
  rw [(steady_returnFirst _ _).endpoint, (steady_returnFirst _ _).sessionTimeout]
  exact ⟨failed.endpoint.trans told.1, failed.sessionTimeout.trans told.2⟩

/-- The endpoint and the timeout that go with what the carrier is about. A connection that has lost
a session keeps its timeout, but is not new any more. -/
def Stance.records : Stance → ConnectionStatus → Option Endpoint → Option Nat → Prop
  | .free, _, endpoint, timeout => endpoint = none ∧ timeout = none
  | .seeking resumes _, status, endpoint, timeout =>
    endpoint = none ∧ if resumes then status ≠ .new else timeout = none
  | .driving s, _, endpoint, timeout => endpoint = some s.endpoint ∧ timeout = some s.timeout
  | .finished, _, endpoint, timeout => endpoint = none ∧ timeout = none

def Records (c : Connection) : Prop := c.stance.records c.status c.endpoint c.sessionTimeout

namespace Records

variable {c c' : Connection}

theorem steady (h : Records c) (q : Steady c c') : Records c' := by
  unfold Records
  rw [q.stance, q.status, q.endpoint, q.sessionTimeout]
  exact h

theorem of_seeking {s : Search} (h : Records c) (seeking : c.carrier = .seeking s) :
    c.endpoint = none ∧ if s.resumes then c.status ≠ .new else c.sessionTimeout = none := by
  unfold Records at h
  rw [stance, seeking] at h
  exact h

theorem of_first {s : Search} (h : Records c) (seeking : c.carrier = .seeking s)
    (first : s.resumes = false) : c.endpoint = none ∧ c.sessionTimeout = none := by
  have kept := h.of_seeking seeking
  rw [first] at kept
  exact kept

theorem sessionFailed (alive : c.status ≠ .closed) (f : Failure) :
    Records (c.sessionFailed f) := by
  unfold Records
  rw [stance_sessionFailed, status_sessionFailed alive]
  exact ⟨endpoint_sessionFailed c f, by simp⟩

theorem closeOut (c : Connection) : Records c.closeOut := c.vacant_closeOut

theorem turn (h : Records c) (suits : c.stance.suits c.status c.sessionId) (t : Turn c c') :
    Records c' := by
  cases t with
  | steady q => exact h.steady q
  | sought idle alive timeout =>
    unfold Records at h
    rw [stance, idle] at h
    exact h
  | @attempted s e _ seeking q =>
    have records : Records (c.record (.attempted e s.offer)) := h
    exact records.steady q
  | @rejected s c₁ seeking before =>
    have kept : c₁.stance = .seeking s.resumes s.offer :=
      before.stance.trans (by rw [stance, seeking]; rfl)
    have alive : c₁.status ≠ .closed := by
      rw [before.status]
      exact ConnectionStatus.ne_closed_of_isIdle (suits_of_seeking suits seeking).1
    have records := h.of_seeking seeking
    rw [← before.endpoint, ← before.sessionTimeout] at records
    unfold Records
    rw [stance, carrier_transition, ← stance, kept, endpoint_transition, sessionTimeout_transition,
      status_transition, if_neg alive]
    refine ⟨records.1, ?_⟩
    split
    · simp
    · rename_i first
      simpa [first] using records.2
  | @opened search s d _ seeking uses after =>
    subst uses
    have started : Records { c.sessionStarted d.session search with carrier := .driving d } :=
      c.records_sessionStarted d.session search
    exact started.steady after
  | lost driving before =>
    refine sessionFailed ?_ _
    rw [before.status, (suits_of_driving suits driving).1]
    exact Session.status_ne_closed _
  | expired driving before =>
    refine sessionFailed ?_ _
    rw [record, before.status, (suits_of_driving suits driving).1]
    exact Session.status_ne_closed _
  | @gaveUp s f c₁ seeking first before =>
    have records := h.of_first seeking first
    obtain ⟨endpoint, timeout⟩ := c₁.records_connectFailed f
    unfold Records
    rw [stance_connectFailed, endpoint, timeout, before.endpoint, before.sessionTimeout]
    exact records
  | @withdrew s c₁ _ seeking first before after =>
    have records := h.of_first seeking first
    rw [← before.endpoint, ← before.sessionTimeout] at records
    have withdrawn : Records { c₁ with carrier := .free } := records
    exact withdrawn.steady after
  | closedOut before after drained => exact (closeOut _).steady after

end Records

theorem Reachable.records {settings : Settings} {roster : Roster} {c : Connection}
    (h : Reachable settings roster c) : Records c := by
  induction h with
  | start => exact ⟨rfl, rfl⟩
  | step a reached taken ih => exact ih.turn reached.suits (turn_of_step taken)

theorem Stride.session_cases {c c' : Connection} {a : Action} (stride : Stride c a c')
    {s : Session} (driving : c'.pursuit = .driving s) :
    c.pursuit = .driving s ∨ ∃ search e stop r, c.carrier = .seeking search ∧
      search.phase = .handshake e stop ∧ a = .answer r ∧
      r >>= Session.ofAnswer e c.settings = .ok s := by
  have apart {b : Connection} (q : Apart b c') : b.pursuit = .driving s :=
    q.pursuit.symm.trans driving
  have vain {b : Connection} {search : Search}
      (q : Apart { b with carrier := aftermath search } c') : False := by
    obtain ⟨d, hd, -⟩ := pursuit_eq_driving.mp (apart q)
    exact aftermath_ne_driving search d hd
  cases stride with
  | apart other q => exact .inl (apart q)
  | replaced update => exact .inl driving
  | asked cause q =>
    have before := apart q
    exact .inl before
  | sought | begun | waited | counted | passedOver | chose => cases driving
  | lost other from_ q => cases apart q
  | ended other away q => cases apart q
  | spent | deserted => exact (vain (apart_searchFailed _ _ _)).elim
  | opened seeking shakes accepts =>
    have same : Pursuit.driving _ = .driving s := apart (apart_openSession _ _ _)
    obtain rfl := Pursuit.driving.inj same
    exact .inr ⟨_, _, _, _, seeking, shakes, rfl, accepts⟩
  | failed | timedOut => cases apart (apart_attemptFailed _ _ _ _)
  | stopped => exact (vain (apart_searchStopped _ _)).elim

/-- The session in use was opened by the answer `r` of the endpoint `e`, and it has been the same
since. -/
inductive OpenedBy (settings : Settings) (roster : Roster) (e : Endpoint) (r : ConnectResponse) :
    Connection → Prop where
  | opened {b c : Connection} {search : Search} {stop : Nat} (reached : Reachable settings roster b)
    (seeking : b.carrier = .seeking search) (shakes : search.phase = .handshake e stop)
    (taken : b.step (.answer (.ok (.connected r))) = some c) : OpenedBy settings roster e r c
  | lasts {b c : Connection} {a : Action} (before : OpenedBy settings roster e r b)
    (taken : b.step a = some c) (same : c.pursuit = b.pursuit) : OpenedBy settings roster e r c

theorem OpenedBy.pursuit {settings : Settings} {roster : Roster} {e : Endpoint}
    {r : ConnectResponse} {c : Connection} (h : OpenedBy settings roster e r c) :
    c.pursuit = .driving (.granted e settings r) := by
  induction h with
  | @opened b c search stop reached seeking shakes taken =>
    have opens : b.answer (.ok (.connected r)) = some c := taken
    simp only [answer, seeking, shakes] at opens
    obtain rfl := Option.some.inj opens
    rw [← reached.settings_eq]
    exact (b.apart_openSession search (.granted e b.settings r)).pursuit
  | lasts before taken same ih => exact same.trans ih

theorem Reachable.exists_openedBy {settings : Settings} {roster : Roster} {c : Connection}
    (h : Reachable settings roster c) {s : Session} (driving : c.pursuit = .driving s) :
    ∃ e r, OpenedBy settings roster e r c := by
  induction h with
  | start => cases driving
  | @step b c a reached taken ih =>
    rcases (stride_of_step taken).session_cases driving with
      before | ⟨search, e, stop, r, seeking, shakes, rfl, accepts⟩
    · obtain ⟨e, r, opened⟩ := ih before
      exact ⟨e, r, .lasts opened taken (driving.trans before.symm)⟩
    · obtain ⟨answer, rfl, -⟩ := Session.ofAnswer_eq_ok_iff.mp accepts
      exact ⟨e, answer, .opened reached seeking shakes taken⟩

theorem Reachable.isConnected_iff {settings : Settings} {roster : Roster} {c : Connection}
    (h : Reachable settings roster c) :
    c.status.isConnected = true ↔ ∃ s, c.pursuit = .driving s := by
  have suits := h.suits
  have idle {status : ConnectionStatus} (hi : status.isIdle = true) :
      status.isConnected = false := by
    cases status <;> first | rfl | cases hi
  rw [stance] at suits
  unfold Connection.pursuit
  cases carrier : c.carrier with
  | free =>
    rw [carrier] at suits
    simp [idle suits.1, Carrier.pursuit]
  | seeking s =>
    rw [carrier] at suits
    simp [idle suits.1, Carrier.pursuit]
  | driving d =>
    rw [carrier] at suits
    simp [suits.1, d.session.isConnected_status, Carrier.pursuit]
  | finished =>
    rw [carrier] at suits
    simp [suits.1, ConnectionStatus.isConnected, Carrier.pursuit]

theorem Reachable.recorded {settings : Settings} {roster : Roster} {c : Connection}
    (h : Reachable settings roster c) {s : Session} (driving : c.pursuit = .driving s) :
    c.status = s.status ∧ c.endpoint = some s.endpoint ∧ c.sessionId = some s.id ∧
      c.sessionTimeout = some s.timeout := by
  obtain ⟨d, carrier, rfl⟩ := pursuit_eq_driving.mp driving
  obtain ⟨status, id⟩ := suits_of_driving h.suits carrier
  have records := h.records
  unfold Records at records
  rw [stance, carrier] at records
  exact ⟨status, records.1, id, records.2⟩

theorem Reachable.unrecorded {settings : Settings} {roster : Roster} {c : Connection}
    (h : Reachable settings roster c) (away : ∀ s, c.pursuit ≠ .driving s) :
    c.endpoint = none ∧ (c.status = .new ∨ c.status = .closed →
      c.sessionId = none ∧ c.sessionTimeout = none) := by
  have records := h.records
  have suits := h.suits
  unfold Records at records
  rw [stance] at records suits
  cases carrier : c.carrier with
  | free =>
    rw [carrier] at records suits
    exact ⟨records.1, fun _ => ⟨suits.2, records.2⟩⟩
  | seeking s =>
    rw [carrier] at records suits
    obtain ⟨idle, offer, first⟩ := suits
    refine ⟨records.1, fun blank => ?_⟩
    have alive := ConnectionStatus.ne_closed_of_isIdle idle
    have new : c.status = .new := blank.resolve_right alive
    cases resumes : s.resumes with
    | false =>
      have unset := records.2
      simp only [resumes] at unset
      exact ⟨offer.trans (first resumes), unset⟩
    | true =>
      have used := records.2
      simp only [resumes] at used
      exact absurd new used
  | driving d => exact absurd (pursuit_eq_driving.mpr ⟨d, carrier, rfl⟩) (away d.session)
  | finished =>
    rw [carrier] at records suits
    exact ⟨records.1, fun _ => ⟨suits.2, records.2⟩⟩

/-- The status, the endpoint, the id and the timeout that a connection records fit together. -/
theorem Reachable.consistent {settings : Settings} {roster : Roster} {c : Connection}
    (h : Reachable settings roster c) :
    (c.endpoint.isSome = true ↔ c.status.isConnected = true) ∧
    (c.status.isConnected = true → (∃ e r, OpenedBy settings roster e r c) ∧
      ∀ e r, OpenedBy settings roster e r c →
        c.endpoint = some e ∧ c.sessionId = some r.sessionId ∧
        c.sessionTimeout = some (Time.ofMillis (if r.sessionTimeoutMs = 0
          then settings.sessionTimeoutMs else r.sessionTimeoutMs).toNat) ∧
        (c.status = .connectedReadonly ↔ r.readOnly = true)) ∧
    (c.status = .new ∨ c.status = .closed →
      c.sessionId = none ∧ c.endpoint = none ∧ c.sessionTimeout = none) := by
  have connected := h.isConnected_iff
  refine ⟨?_, fun uses => ?_, fun blank => ?_⟩
  · rw [connected]
    constructor
    · intro present
      refine Classical.byContradiction fun away => ?_
      rw [(h.unrecorded (not_exists.mp away)).1] at present
      cases present
    · rintro ⟨s, driving⟩
      rw [(h.recorded driving).2.1]
      rfl
  · obtain ⟨s, driving⟩ := connected.mp uses
    refine ⟨h.exists_openedBy driving, fun e r opened => ?_⟩
    obtain ⟨status, endpoint, id, timeout⟩ := h.recorded opened.pursuit
    refine ⟨endpoint, id, timeout, ?_⟩
    rw [status, Session.status_eq_connectedReadonly_iff]
    rfl
  · have away : ∀ s, c.pursuit ≠ .driving s := fun s driving => by
      have uses := connected.mpr ⟨s, driving⟩
      rcases blank with new | closed
      · rw [new] at uses
        cases uses
      · rw [closed] at uses
        cases uses
    obtain ⟨endpoint, unset⟩ := h.unrecorded away
    exact ⟨(unset blank).1, endpoint, (unset blank).2⟩

/-- A session taken up again on another server, read-only and with the timeout that was asked
for. -/
theorem consistent_of_resumed : ∃ c : Connection, Reachable {}
    { endpoints := [⟨"a", 1⟩, ⟨"b", 2⟩], nonempty := by simp } c ∧
    c.status = .connectedReadonly ∧ c.endpoint = some ⟨"b", 2⟩ ∧ c.sessionId = some 7 ∧
    c.sessionTimeout = some (Time.ofMillis 40000) := by
  let answer : ConnectResponse := { sessionId := 7, sessionTimeoutMs := 0, readOnly := true }
  have outcome : ((start {} { endpoints := [⟨"a", 1⟩, ⟨"b", 2⟩], nonempty := by simp }).run
      [.callConnect 1000, .enter, .seek, .seek, .seek,
        .answer (.ok (.connected { sessionId := 7, sessionTimeoutMs := 500 })),
        .receive (.error (Framing.failure "reading length prefix" Inlet.earlyEof)),
        .seek, .seek, .seek]).bind (fun b =>
      (b.step (.answer (.ok (.connected answer)))).map fun c => (b.pursuit, c.status)) =
      some (.seeking { Search.resuming {} (some 7) with
        lastEndpoint := some ⟨"b", 2⟩, phase := .handshake ⟨"b", 2⟩ (Time.ofMillis 5000) },
        .connectedReadonly) := by decide +kernel
  obtain ⟨b, run, outcome⟩ := Option.bind_eq_some_iff.mp outcome
  obtain ⟨c, taken, facts⟩ := Option.map_eq_some_iff.mp outcome
  simp only [Prod.mk.injEq] at facts
  obtain ⟨seeking, status⟩ := facts
  have before := Reachable.start.run run
  have reached := before.step _ taken
  have opened : OpenedBy _ _ ⟨"b", 2⟩ answer c :=
    .opened before (pursuit_eq_seeking.mp seeking) rfl taken
  obtain ⟨-, uses, -⟩ := reached.consistent
  obtain ⟨-, fields⟩ := uses (by rw [status]; rfl)
  obtain ⟨endpoint, id, timeout, -⟩ := fields _ _ opened
  exact ⟨c, reached, status, endpoint, id, timeout⟩

end Connection
end ServiceDirectory
