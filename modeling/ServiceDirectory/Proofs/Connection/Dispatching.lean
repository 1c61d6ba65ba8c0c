import ServiceDirectory.Proofs.Connection.Completions

/-! The way from the carrier to the listeners. What was handed to the dispatcher is passed on in the
same order: at every time the dispatcher has passed on a first part of it, and the rest stands in
its queue. A notification is handed over in the step that takes it from the server. -/
namespace ServiceDirectory.Connection

def log (c : Connection) : List Event := c.history.reverse

def Event.published? : Event → Option Dispatch
  | .published d => some d
  | _ => none

def Event.delivered? : Event → Option Dispatch
  | .delivered d _ => some d
  | _ => none

def published (es : List Event) : List Dispatch := es.filterMap Event.published?

def deliveries (es : List Event) : List Dispatch := es.filterMap Event.delivered?

theorem published_append (es new : List Event) :
    published (es ++ new) = published es ++ published new :=
  List.filterMap_append

theorem deliveries_append (es new : List Event) :
    deliveries (es ++ new) = deliveries es ++ deliveries new :=
  List.filterMap_append

@[simp] theorem log_record (c : Connection) (e : Event) : (c.record e).log = c.log ++ [e] :=
  List.reverse_cons

@[simp] theorem log_publish (c : Connection) (d : Dispatch) :
    (c.publish d).log = c.log ++ [.published d] :=
  log_record _ _

def Event.isPlain : Event → Bool
  | .delivered _ _ | .received (.notification _) | .published (.notification _) => false
  | _ => true

theorem Event.delivered?_of_isPlain {e : Event} (h : e.isPlain = true) : e.delivered? = none := by
  cases e with
  | delivered => cases h
  | _ => rfl

/-- What was published meanwhile stands at the end of the queue, and nothing was taken from it. No
notification came, and the listeners stayed. -/
structure Posts (c c' : Connection) : Prop where
  listeners : c'.listeners = c.listeners
  nextListener : c'.nextListener = c.nextListener
  posted : ∃ new, c'.log = c.log ++ new ∧ c'.dispatches = c.dispatches ++ published new ∧
    ∀ e ∈ new, e.isPlain = true

theorem Posts.refl (c : Connection) : Posts c c :=
  ⟨rfl, rfl, [], (List.append_nil _).symm, (List.append_nil _).symm, by simp⟩

theorem Posts.trans {a b c : Connection} (h : Posts a b) (k : Posts b c) : Posts a c := by
  obtain ⟨new, log, dispatches, plain⟩ := h.posted
  obtain ⟨new', log', dispatches', plain'⟩ := k.posted
  refine ⟨k.listeners.trans h.listeners, k.nextListener.trans h.nextListener, new ++ new', ?_, ?_,
    fun e he => (List.mem_append.mp he).elim (plain e) (plain' e)⟩
  · rw [log', log, List.append_assoc]
  · rw [dispatches', dispatches, published_append, List.append_assoc]

theorem posts_fields (c : Connection) {settings : Settings} {now : Nat} {roster : Roster}
    {rejected : List Endpoint} {status : ConnectionStatus} {sessionId : Option SessionId}
    {endpoint : Option Endpoint} {sessionTimeout : Option Nat} {packets : List Packet}
    {outgoing retry : List PacketId} {pending : List (Xid × PacketId)} {outstanding : Nat}
    {nextXid : Xid} {shutdown : Bool} {holding : Holding} {senders : List Sender}
    {calls : List (Ticket × Call)} {carrier : Carrier} {nextTicket : Ticket}
    {latency : Option LatencyRegistry} :
    Posts c { c with
      settings, now, roster, rejected, status, sessionId, endpoint, sessionTimeout, packets
      outgoing, retry, pending, outstanding, nextXid, shutdown, holding, senders, calls, carrier
      nextTicket, latency } :=
  ⟨rfl, rfl, [], (List.append_nil _).symm, (List.append_nil _).symm, by simp⟩

theorem posts_record (c : Connection) {e : Event} (plain : e.isPlain = true)
    (kept : e.published? = none) : Posts c (c.record e) := by
  refine ⟨rfl, rfl, [e], c.log_record e, ?_, by simpa using plain⟩
  have none : published [e] = [] := by simp [published, kept]
  rw [none, List.append_nil]
  rfl

theorem posts_publish (c : Connection) {d : Dispatch} (plain : (Event.published d).isPlain = true) :
    Posts c (c.publish d) :=
  ⟨rfl, rfl, [.published d], c.log_publish d, rfl, by simpa using plain⟩

theorem Posts.overlooksCalls : OverlooksCalls Posts where
  refl := refl
  returned c _ _ _ := c.posts_fields.trans (posts_record _ rfl rfl)

theorem Posts.overlooksPackets : OverlooksPackets Posts where
  refl := refl
  trans := trans
  fields c := c.posts_fields
  completes c _ := c.posts_publish rfl

theorem Posts.overlooksSessions : OverlooksSessions Posts where
  refl := refl
  trans := trans
  fields c := c.posts_fields
  tells c d about := by
    refine c.posts_publish ?_
    cases d with
    | notification n => rcases about with about | about <;> cases about
    | _ => rfl

theorem posts_closeOut (c : Connection) : Posts c c.closeOut := by
  obtain ⟨b, closed, same⟩ := Posts.overlooksSessions.closeOut Posts.overlooksPackets c
  rw [same]
  exact closed.trans (posts_fields _)

theorem posts_sessionFailed (c : Connection) (f : Failure) : Posts c (c.sessionFailed f) := by
  obtain ⟨b, offer, lost, same⟩ :=
    Posts.overlooksSessions.sessionFailed Posts.overlooksPackets c f
  rw [same]
  exact ((c.posts_record rfl rfl).trans lost).trans (posts_fields _)

theorem posts_openSession (c : Connection) (s : Search) (session : Session) :
    Posts c (c.openSession s session) := by
  obtain ⟨b, started, after⟩ :=
    Posts.overlooksSessions.openSession Posts.overlooksCalls c s session
  exact (c.posts_fields.trans (posts_record _ rfl rfl)).trans
    ((started.trans (posts_fields _)).trans after)

theorem posts_connectFailed (c : Connection) (f : Failure) : Posts c (c.connectFailed f) := by
  obtain ⟨b, failed, same⟩ := Posts.overlooksSessions.connectFailed Posts.overlooksPackets c f
  rw [same]
  exact (failed.trans (posts_fields _)).trans (Posts.overlooksCalls.returnFirst _ _)

theorem posts_searchFailed (c : Connection) (s : Search) (f : Failure) :
    Posts c (c.searchFailed s f) := by
  unfold searchFailed
  split
  · exact c.posts_closeOut
  · exact c.posts_connectFailed f

theorem posts_searchStopped (c : Connection) (s : Search) : Posts c (c.searchStopped s) := by
  unfold searchStopped
  split
  · exact c.posts_closeOut
  · exact c.posts_fields.trans (Posts.overlooksCalls.returnFirst _ _)

theorem posts_attemptFailed (c : Connection) (s : Search) (e : Endpoint) (f : Failure) :
    Posts c (c.attemptFailed s e f) :=
  (c.posts_fields.trans (posts_record _ rfl rfl)).trans
    (Posts.overlooksSessions.attemptFailed c s e f)

theorem SearchStep.posts {c c' : Connection} {s : Search} {a : Action}
    (m : SearchStep c s a c') : Posts c c' := by
  cases m with
  | begun | waited | counted | passedOver => exact c.posts_fields
  | spent | deserted => exact c.posts_searchFailed _ _
  | chose => exact c.posts_fields.trans (posts_record _ rfl rfl)
  | opened => exact c.posts_openSession _ _
  | failed | timedOut => exact c.posts_attemptFailed _ _ _
  | stopped => exact c.posts_searchStopped _

theorem WriteStep.posts {c c' : Connection} {d : Drive} {id : PacketId} {p : Packet} {w : Writing}
    (m : WriteStep c d id p w c') : Posts c c' := by
  cases m with
  | skipped | stalled => exact c.posts_fields
  | tooLarge => exact (Posts.overlooksPackets.complete c _ _).trans (posts_fields _)
  | written => exact (c.posts_fields.trans (posts_record _ rfl rfl)).trans (posts_fields _)
  | broken => exact c.posts_fields.trans (posts_sessionFailed _ _)

theorem CallStep.posts {c c' : Connection} {a : Action} (m : CallStep c a c') : Posts c c' := by
  cases m with
  | sought | left => exact c.posts_fields
  | turnedAway => exact Posts.overlooksCalls.returnFirst c _
  | closed => exact c.posts_closeOut.trans (Posts.overlooksCalls.returnFirst _ _)
  | gone => exact c.posts_fields.trans (posts_closeOut _)

theorem SendMove.posts {c c' : Connection} {t : Ticket} (m : SendMove c t c') : Posts c c' := by
  cases m with
  | begun op request callback => exact c.posts_fields
  | numbered split stage => exact c.posts_fields
  | _ => exact c.posts_fields.trans (posts_record _ rfl rfl)

theorem posts_updateRoster (c : Connection) (endpoints : List Endpoint) :
    Posts c (c.updateRoster endpoints).2 := by
  unfold updateRoster
  split
  · exact c.posts_fields
  · exact .refl c

/-- All that a step can do to listeners and to what they are to be told. -/
inductive Mail (c : Connection) : Action → Connection → Prop where
  | posts {a c'} (q : Posts c c') : Mail c a c'
  /-- A notification comes and is handed on. -/
  | noticed {d n a c'} (driving : c.carrier = .driving d) (listeners : c'.listeners = c.listeners)
    (nextListener : c'.nextListener = c.nextListener)
    (log : c'.log = c.log ++ [.received (.notification n), .published (.notification n)])
    (dispatches : c'.dispatches = c.dispatches ++ [.notification n]) : Mail c a c'
  | delivered {d a c'} (listeners : c'.listeners = c.listeners)
    (nextListener : c'.nextListener = c.nextListener)
    (log : c'.log = c.log ++ [.delivered d (c.audience d)])
    (dispatches : c.dispatches = d :: c'.dispatches) : Mail c a c'
  | listened (topic : Topic) : Mail c (.listen topic) (c.listen topic)
  | unlistened (id : ListenerId) : Mail c (.unlisten id) (c.unlisten id).2

theorem mail_handle {c c₁ : Connection} {d : Drive} (driving : c.carrier = .driving d)
    (d' : Drive) (a : Action) (f : ServerFrame)
    (same : ∃ carrier, c₁ = { c with carrier }.record (.received f)) :
    Mail c a (c₁.handle d' f) := by
  obtain ⟨carrier, rfl⟩ := same
  have noted (plain : (Event.received f).isPlain = true) :
      Posts c ({ c with carrier }.record (.received f)) :=
    c.posts_fields.trans (posts_record _ plain rfl)
  cases f with
  | response r => exact .posts ((noted rfl).trans (Posts.overlooksPackets.respond _ r))
  | pong => exact .posts ((noted rfl).trans (posts_fields _))
  | notification n =>
    refine .noticed driving rfl rfl ?_ rfl
    rw [handle, log_publish, log_record, List.append_assoc]
    rfl
  | sessionExpired => exact .posts ((noted rfl).trans (posts_sessionFailed _ _))
  | connected r => exact .posts (noted rfl)
  | authFailed reason => exact .posts (noted rfl)

theorem SessionStep.mail {c c' : Connection} {d : Drive} {a : Action}
    (driving : c.carrier = .driving d) (m : SessionStep c d a c') : Mail c a c' := by
  cases m with
  | heard ready f => exact mail_handle driving _ _ _ ⟨_, rfl⟩
  | cut | expired | silent => exact .posts (c.posts_sessionFailed _)
  | pinged => exact .posts (c.posts_fields.trans (posts_record _ rfl rfl))
  | unpinged => exact .posts (c.posts_fields.trans (posts_sessionFailed _ _))
  | hungUp => exact .posts ((c.posts_record rfl rfl).trans (posts_closeOut _))

theorem DeliverStep.mail {c c' : Connection} {a : Action} (m : DeliverStep c c') :
    Mail c a c' := by
  cases m with
  | @ran k rest head =>
    obtain ⟨_, _, shape⟩ := ({ c with dispatches := rest }.record
      (.delivered (.completion k) (c.audience (.completion k)))).invoke_shape k
    rw [shape]
    exact .delivered rfl rfl (log_record _ _) head
  | told head => exact .delivered rfl rfl (log_record _ _) head

/-- Every step hands on what it publishes, or does something with the listeners. -/
theorem mail_of_step {c c' : Connection} {a : Action} (h : c.step a = some c') : Mail c a c' := by
  cases stepped_of_step h with
  | passed | letGo | called | asked => exact .posts c.posts_fields
  | listed endpoints => exact .posts (c.posts_updateRoster endpoints)
  | listened topic => exact .listened topic
  | unlistened id => exact .unlistened id
  | sent actor m => exact .posts m.posts
  | call m => exact .posts m.posts
  | searched seeking m => exact .posts m.posts
  | wrote driving takes packet m =>
    exact .posts ((Posts.overlooksPackets.takes takes).trans m.posts)
  | used driving m => exact m.mail driving
  | delivered m => exact m.mail

theorem deliveries_of_plain {es : List Event} (plain : ∀ e ∈ es, e.isPlain = true) :
    deliveries es = [] :=
  List.filterMap_eq_nil_iff.mpr fun e he => Event.delivered?_of_isPlain (plain e he)

theorem Reachable.passed_on {settings : Settings} {roster : Roster} {c : Connection}
    (h : Reachable settings roster c) : published c.log = deliveries c.log ++ c.dispatches := by
  induction h with
  | start => rfl
  | @step c c' a reached taken ih =>
    cases mail_of_step taken with
    | posts q =>
      obtain ⟨new, log, dispatches, plain⟩ := q.posted
      rw [log, published_append, deliveries_append, deliveries_of_plain plain, List.append_nil,
        dispatches, ih, List.append_assoc]
    | @noticed d n _ _ driving listeners nextListener log dispatches =>
      have none : deliveries [.received (.notification n), .published (.notification n)] = [] := rfl
      rw [log, published_append, deliveries_append, dispatches, ih, none, List.append_nil,
        List.append_assoc]
      rfl
    | @delivered d _ _ listeners nextListener log dispatches =>
      have one : deliveries [.delivered d (c.audience d)] = [d] := rfl
      have none : published [.delivered d (c.audience d)] = [] := rfl
      rw [log, published_append, deliveries_append, ih, dispatches, one, none, List.append_nil,
        List.append_assoc]
      rfl
    | listened topic => exact ih
    | unlistened id => exact ih

structure Listening (c : Connection) : Prop where
  distinct : (c.listeners.map (·.id)).Nodup
  used : ∀ l ∈ c.listeners, l.id < c.nextListener

theorem Listening.congr {c c' : Connection} (h : Listening c)
    (listeners : c'.listeners = c.listeners) (nextListener : c'.nextListener = c.nextListener) :
    Listening c' :=
  ⟨listeners ▸ h.distinct, by rw [listeners, nextListener]; exact h.used⟩

theorem Reachable.listening {settings : Settings} {roster : Roster} {c : Connection}
    (h : Reachable settings roster c) : Listening c := by
  induction h with
  | start => exact ⟨List.nodup_nil, fun _ hl => by cases hl⟩
  | @step c c' a reached taken ih =>
    cases mail_of_step taken with
    | posts q => exact ih.congr q.listeners q.nextListener
    | noticed driving listeners nextListener => exact ih.congr listeners nextListener
    | delivered listeners nextListener => exact ih.congr listeners nextListener
    | listened topic =>
      refine ⟨?_, fun l hl => ?_⟩
      · rw [listen, List.map_append, List.map_singleton]
        refine List.nodup_append.mpr ⟨ih.distinct, by simp, fun id hid next hn same => ?_⟩
        obtain ⟨l, hl, rfl⟩ := List.mem_map.mp hid
        have used := ih.used l hl
        rw [same, List.mem_singleton.mp hn] at used
        exact Nat.lt_irrefl _ used
      · rcases List.mem_append.mp hl with old | new
        · exact Nat.lt_succ_of_lt (ih.used l old)
        · rw [List.mem_singleton.mp new]
          exact Nat.lt_succ_self _
    | unlistened id =>
      refine ⟨ih.distinct.sublist (List.filter_sublist.map _), fun l hl => ?_⟩
      exact ih.used l (List.mem_filter.mp hl).1

theorem mem_listeners_of_step {c c' : Connection} {a : Action} (h : c.step a = some c')
    {l : Listener} (listens : l ∈ c.listeners) (kept : a ≠ .unlisten l.id) : l ∈ c'.listeners := by
  cases mail_of_step h with
  | posts q => exact q.listeners ▸ listens
  | noticed driving listeners => exact listeners ▸ listens
  | delivered listeners => exact listeners ▸ listens
  | listened topic => exact List.mem_append_left _ listens
  | unlistened id =>
    refine List.mem_filter.mpr ⟨listens, bne_iff_ne.mpr fun same => kept ?_⟩
    rw [same]

end ServiceDirectory.Connection
