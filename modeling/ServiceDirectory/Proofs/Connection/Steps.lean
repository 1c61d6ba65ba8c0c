import ServiceDirectory.Proofs.Connection.Overlooking

/-! What each step of a connection comes to, and under which conditions. The steps are looked into
only here: what a step can do to some part of a connection is found out by cases on these lists. -/
namespace ServiceDirectory

namespace Search

variable {s : Search} {settings : Settings} {now : Nat} {shutdown : Bool}

inductive Begun (s : Search) (settings : Settings) (now : Nat) (shutdown : Bool) :
    Progress → Prop where
  | spent (none : settings.retry.totalAttempts ≤ s.attempt) :
    Begun s settings now shutdown (.failed s.exhausted)
  | stopped (left : s.attempt < settings.retry.totalAttempts) (asked : shutdown = true) :
    Begun s settings now shutdown .stopped
  | chooses (left : s.attempt < settings.retry.totalAttempts) (awake : shutdown = false)
    (first : s.attempt = 0) :
    Begun s settings now shutdown (.continues { s with phase := .choosing })
  | late {d : Nat} (left : s.attempt < settings.retry.totalAttempts) (later : s.attempt ≠ 0)
    (deadline : d ∈ s.deadline) (late : d ≤ now + settings.retry.backoff s.attempt) :
    Begun s settings now shutdown (.failed s.deadlineFailure)
  | pauses (left : s.attempt < settings.retry.totalAttempts) (awake : shutdown = false)
    (later : s.attempt ≠ 0)
    (early : ∀ d ∈ s.deadline, now + settings.retry.backoff s.attempt < d) :
    Begun s settings now shutdown
      (.continues { s with phase := .pausing (now + settings.retry.backoff s.attempt) })

variable (s settings now shutdown) in
theorem begun_begin : Begun s settings now shutdown (s.begin settings now shutdown) := by
  unfold Search.begin
  split
  · exact .spent ‹_›
  rename_i some
  have left := Nat.lt_of_not_le some
  split
  · exact .stopped left ‹_›
  rename_i unasked
  have awake := Bool.eq_false_iff.mpr unasked
  split
  · exact .chooses left awake ‹_›
  rename_i later
  simp only
  split
  · rename_i late
    cases deadline : s.deadline with
    | none => rw [deadline] at late; cases late
    | some d =>
      rw [deadline] at late
      exact .late left later deadline (of_decide_eq_true late)
  · rename_i early
    refine .pauses left awake later fun d deadline => Nat.lt_of_not_le fun late => early ?_
    rw [Option.mem_def.mp deadline]
    exact decide_eq_true late

theorem continues_of_begin {s' : Search} (h : s.begin settings now shutdown = .continues s') :
    s.attempt < settings.retry.totalAttempts ∧
      (s.attempt = 0 ∧ s' = { s with phase := .choosing } ∨
        s.attempt ≠ 0 ∧ ∃ stop, s' = { s with phase := .pausing stop }) := by
  cases h ▸ s.begun_begin settings now shutdown with
  | chooses left awake first => exact ⟨left, .inl ⟨first, rfl⟩⟩
  | pauses left awake later early => exact ⟨left, .inr ⟨later, _, rfl⟩⟩

theorem not_shutdown_of_begin {s' : Search} (h : s.begin settings now shutdown = .continues s') :
    shutdown = false := by
  cases h ▸ s.begun_begin settings now shutdown with
  | chooses left awake | pauses left awake => exact awake

theorem failed_of_begin {f : Failure} (h : s.begin settings now shutdown = .failed f) :
    settings.retry.totalAttempts ≤ s.attempt ∨
      s.attempt ≠ 0 ∧ ∃ d ∈ s.deadline, d ≤ now + settings.retry.backoff s.attempt := by
  cases h ▸ s.begun_begin settings now shutdown with
  | spent none => exact .inl none
  | late left later deadline late => exact .inr ⟨later, _, deadline, late⟩

theorem shutdown_of_begin (h : s.begin settings now shutdown = .stopped) : shutdown = true := by
  cases h ▸ s.begun_begin settings now shutdown with
  | stopped left asked => exact asked

def isChoosing (s : Search) : Bool :=
  match s.phase with
  | .choosing | .drawing _ => true
  | _ => false

end Search

namespace Connection

def Sender.packet (s : Sender) (xid : Xid) (now : Nat) : Packet :=
  { xid, op := s.op, request := s.request, callback := s.callback
    stamps := { created := now, queued := some now } }

inductive SendMove (c : Connection) : Ticket → Connection → Prop where
  | begun (op : OpCode) (request : ByteArray) (callback : Callback) :
    SendMove c c.nextTicket { c with
      nextTicket := c.nextTicket + 1
      senders := c.senders ++ [⟨c.nextTicket, op, request, callback, .checked⟩] }
  | declined :
    SendMove c c.nextTicket ({ c with nextTicket := c.nextTicket + 1 }.record
      (.refused c.nextTicket .connectionClosed))
  | admitted {l s r} (split : c.senders = l ++ s :: r) (stage : s.stage = .checked)
    (room : c.outstanding < c.settings.maxOutstanding) :
    SendMove c s.ticket ({ c with
      outstanding := c.outstanding + 1
      senders := l ++ { s with stage := .reserved } :: r }.record (.reserved s.ticket))
  | turnedAway {l s r} (split : c.senders = l ++ s :: r) (stage : s.stage = .checked)
    (full : c.settings.maxOutstanding ≤ c.outstanding) :
    SendMove c s.ticket ({ c with senders := l ++ r }.record
      (.refused s.ticket (.backlogFull c.settings.maxOutstanding)))
  | numbered {l s r} (split : c.senders = l ++ s :: r) (stage : s.stage = .reserved) :
    SendMove c s.ticket { c with
      nextXid := c.nextXid + 1
      senders := l ++ { s with stage := .numbered (s.packet c.nextXid c.now) } :: r }
  | accepted {l s p r} (split : c.senders = l ++ s :: r) (stage : s.stage = .numbered p)
    (live : c.carrier ≠ .finished) :
    SendMove c s.ticket ({ c with
      senders := l ++ r
      packets := c.packets ++ [p]
      outgoing := c.outgoing ++ [c.packets.length] }.record (.accepted s.ticket c.packets.length))
  | tooLate {l s p r} (split : c.senders = l ++ s :: r) (stage : s.stage = .numbered p)
    (closed : c.carrier = .finished) :
    SendMove c s.ticket ({ c with senders := l ++ r, outstanding := c.outstanding - 1 }.record
      (.refused s.ticket .connectionClosed))

def actor (c : Connection) : Action → Option Ticket
  | .beginSend _ _ _ => some c.nextTicket
  | .reserve i | .number i | .enqueue i => (c.senders[i]?).map (·.ticket)
  | _ => none

theorem split_of_getElem? {α : Type} {xs : List α} {i : Nat} {x : α} (h : xs[i]? = some x) :
    ∃ l r, xs = l ++ x :: r ∧ (∀ y, xs.set i y = l ++ y :: r) ∧ xs.eraseIdx i = l ++ r := by
  induction xs generalizing i with
  | nil => simp at h
  | cons a xs ih =>
    cases i with
    | zero =>
      obtain rfl : a = x := by simpa using h
      exact ⟨[], xs, rfl, fun y => rfl, rfl⟩
    | succ i =>
      obtain ⟨l, r, hs, hset, herase⟩ := ih (i := i) (by simpa using h)
      refine ⟨a :: l, r, by rw [hs]; rfl, fun y => ?_, ?_⟩
      · simp [hset y]
      · simp [herase]

theorem sendMove_beginSend (c : Connection) (op : OpCode) (request : ByteArray)
    (callback : Callback) : SendMove c c.nextTicket (c.beginSend op request callback) := by
  unfold beginSend
  simp only
  split
  · exact .begun op request callback
  · exact .declined

theorem sendMove_reserve {c c' : Connection} {i : Nat} (h : c.reserve i = some c') :
    ∃ t, c.actor (.reserve i) = some t ∧ SendMove c t c' := by
  unfold reserve at h
  split at h
  · rename_i ticket op request callback hs
    obtain ⟨l, r, hl, hset, herase⟩ := split_of_getElem? hs
    refine ⟨ticket, by rw [actor, hs]; rfl, ?_⟩
    split at h
    · rename_i room
      obtain rfl := Option.some.inj h
      rw [hset]
      exact .admitted hl rfl room
    · rename_i full
      obtain rfl := Option.some.inj h
      rw [herase]
      exact .turnedAway hl rfl (Nat.le_of_not_lt full)
  · cases h

theorem sendMove_number {c c' : Connection} {i : Nat} (h : c.number i = some c') :
    ∃ t, c.actor (.number i) = some t ∧ SendMove c t c' := by
  unfold number at h
  split at h
  · rename_i ticket op request callback hs
    obtain ⟨l, r, hl, hset, -⟩ := split_of_getElem? hs
    obtain rfl := Option.some.inj h
    rw [hset]
    exact ⟨ticket, by rw [actor, hs]; rfl, .numbered hl rfl⟩
  · cases h

theorem sendMove_enqueue {c c' : Connection} {i : Nat} (h : c.enqueue i = some c') :
    ∃ t, c.actor (.enqueue i) = some t ∧ SendMove c t c' := by
  unfold enqueue at h
  split at h
  · rename_i ticket op request callback p hs
    obtain ⟨l, r, hl, -, herase⟩ := split_of_getElem? hs
    simp only [herase] at h
    refine ⟨ticket, by rw [actor, hs]; rfl, ?_⟩
    split at h
    · rename_i closed
      obtain rfl := Option.some.inj h
      exact .tooLate hl rfl closed
    · rename_i live
      obtain rfl := Option.some.inj h
      exact .accepted hl rfl live
  · cases h

inductive SearchStep (c : Connection) (s : Search) : Action → Connection → Prop where
  | begun {s'} (ready : s.phase = .ready)
    (begins : s.begin c.settings c.now c.shutdown = .continues s') :
    SearchStep c s .seek { c with carrier := .seeking s' }
  | spent {f} (ready : s.phase = .ready)
    (begins : s.begin c.settings c.now c.shutdown = .failed f) :
    SearchStep c s .seek (c.searchFailed s f)
  | waited {stop} (pausing : s.phase = .pausing stop) (past : stop ≤ c.now) :
    SearchStep c s .seek { c with carrier := .seeking { s with phase := .choosing } }
  | counted (choosing : s.phase = .choosing) :
    SearchStep c s .seek { c with carrier := .seeking { s with phase := .drawing c.roster.size } }
  | passedOver {left} (drawing : s.phase = .drawing (left + 1))
    (refused : c.roster.peek ∈ c.rejected) :
    SearchStep c s .seek { c with
      roster := c.roster.advance
      carrier := .seeking { s with phase := .drawing left } }
  | chose {left} (drawing : s.phase = .drawing (left + 1))
    (accepted : c.roster.peek ∉ c.rejected) :
    SearchStep c s .seek ({ c with
      roster := c.roster.advance
      carrier := .seeking (s.face c.roster.peek c.now)
      }.record (.attempted c.roster.peek s.offer))
  | deserted (none : s.phase = .drawing 0) :
    SearchStep c s .seek (c.searchFailed s s.exhausted)
  | opened {e stop r session} (shakes : s.phase = .handshake e stop)
    (accepts : r >>= Session.ofAnswer e c.settings = .ok session) :
    SearchStep c s (.answer r) (c.openSession s session)
  | failed {e stop r f} (shakes : s.phase = .handshake e stop)
    (fails : r >>= Session.ofAnswer e c.settings = .error f) :
    SearchStep c s (.answer r) (c.attemptFailed s e f)
  | timedOut {e stop} (shakes : s.phase = .handshake e stop) (past : stop ≤ c.now) :
    SearchStep c s .timeOut (c.attemptFailed s e (.connectTimeout e s.timeoutMs))
  | stopped {a} (stops : a = .seek ∨ a = .stop) (asked : c.shutdown = true)
    (chosen : s.isChoosing = false) : SearchStep c s a (c.searchStopped s)

theorem draw_of_refused {c : Connection} (s : Search) (left : Nat)
    (refused : c.roster.peek ∈ c.rejected) :
    c.draw s left = { c with
      roster := c.roster.advance
      carrier := .seeking { s with phase := .drawing left } } :=
  if_pos (List.contains_iff_mem.mpr refused)

theorem draw_of_accepted {c : Connection} (s : Search) (left : Nat)
    (accepted : c.roster.peek ∉ c.rejected) :
    c.draw s left = { c with
      roster := c.roster.advance
      carrier := .seeking (s.face c.roster.peek c.now)
      }.record (.attempted c.roster.peek s.offer) :=
  if_neg fun refused => accepted (List.contains_iff_mem.mp refused)

theorem searchStep_draw {c : Connection} {s : Search} {left : Nat}
    (drawing : s.phase = .drawing (left + 1)) : SearchStep c s .seek (c.draw s left) := by
  by_cases refused : c.roster.peek ∈ c.rejected
  · exact draw_of_refused s left refused ▸ .passedOver drawing refused
  · exact draw_of_accepted s left refused ▸ .chose drawing refused

theorem searchStep_of_seek {c c' : Connection} (h : c.seek = some c') :
    ∃ s, c.carrier = .seeking s ∧ SearchStep c s .seek c' := by
  unfold seek at h
  split at h
  · rename_i s seeking
    refine ⟨s, seeking, ?_⟩
    split at h
    · rename_i ready
      obtain rfl := Option.some.inj h
      cases begins : s.begin c.settings c.now c.shutdown with
      | continues s' => exact .begun ready begins
      | failed f => exact .spent ready begins
      | stopped =>
        have asked := Search.shutdown_of_begin begins
        exact .stopped (.inl rfl) asked (by rw [Search.isChoosing, ready])
    · rename_i stop pausing
      split at h
      · rename_i past
        obtain rfl := Option.some.inj h
        exact .waited pausing past
      · cases h
    · rename_i choosing
      obtain rfl := Option.some.inj h
      exact .counted choosing
    · rename_i none
      obtain rfl := Option.some.inj h
      exact .deserted none
    · rename_i left drawing
      obtain rfl := Option.some.inj h
      exact searchStep_draw drawing
    · cases h
  · cases h

theorem searchStep_of_answer {c c' : Connection} {r : Except Failure ServerFrame}
    (h : c.answer r = some c') :
    ∃ s, c.carrier = .seeking s ∧ SearchStep c s (.answer r) c' := by
  unfold answer at h
  split at h
  · rename_i s seeking
    refine ⟨s, seeking, ?_⟩
    split at h
    · rename_i e stop shakes
      split at h
      · rename_i session accepts
        obtain rfl := Option.some.inj h
        exact .opened shakes accepts
      · rename_i f fails
        obtain rfl := Option.some.inj h
        exact .failed shakes fails
    · cases h
  · cases h

theorem searchStep_of_timeOut {c c' : Connection} (h : c.timeOut = some c') :
    ∃ s, c.carrier = .seeking s ∧ SearchStep c s .timeOut c' := by
  unfold timeOut at h
  split at h
  · rename_i s seeking
    refine ⟨s, seeking, ?_⟩
    split at h
    · rename_i e stop shakes
      split at h
      · rename_i past
        obtain rfl := Option.some.inj h
        exact .timedOut shakes past
      · cases h
    · cases h
  · cases h

theorem searchStep_of_stop {c c' : Connection} (h : c.stop = some c') :
    ∃ s, c.carrier = .seeking s ∧ SearchStep c s .stop c' := by
  unfold stop at h
  split at h
  · rename_i s seeking
    refine ⟨s, seeking, ?_⟩
    split at h
    · rename_i asked
      split at h
      · rename_i pausing
        exact Option.some.inj h ▸ .stopped (.inr rfl) asked (by rw [Search.isChoosing, pausing])
      · rename_i shakes
        exact Option.some.inj h ▸ .stopped (.inr rfl) asked (by rw [Search.isChoosing, shakes])
      · cases h
    · cases h
  · cases h

/-- The carrier takes up a packet: one that it had before, or else the first in the queue. -/
inductive Takes (c : Connection) (id : PacketId) : Connection → Prop where
  | again {retry : List PacketId} (head : c.retry = id :: retry) : Takes c id { c with retry }
  | first {outgoing : List PacketId} (none : c.retry = []) (head : c.outgoing = id :: outgoing) :
    Takes c id { c with outgoing }

theorem OverlooksPackets.takes {R : Connection → Connection → Prop} (h : OverlooksPackets R)
    {c c' : Connection} {id : PacketId} (t : Takes c id c') : R c c' := by
  cases t <;> exact h.fields c

theorem takes_of_write {c c' : Connection} {w : Writing} (h : c.write w = some c') :
    ∃ d id p c₁, c.carrier = .driving d ∧ Takes c id c₁ ∧ c₁.packets[id]? = some p ∧
      c' = c₁.writeRequest d id p w := by
  unfold write at h
  split at h
  · rename_i d driving
    split at h
    · cases h
    · split at h
      · rename_i head
        obtain ⟨p, hp, rfl⟩ := Option.map_eq_some_iff.mp h
        exact ⟨d, _, p, _, driving, .again head, hp, rfl⟩
      · rename_i none head
        obtain ⟨p, hp, rfl⟩ := Option.map_eq_some_iff.mp h
        exact ⟨d, _, p, _, driving, .first none head, hp, rfl⟩
      · cases h
  · cases h

inductive WriteStep (c : Connection) (d : Drive) (id : PacketId) (p : Packet) :
    Writing → Connection → Prop where
  | skipped {w} (done : p.completed = true) :
    WriteStep c d id p w { c with carrier := .driving { d with writing := false } }
  | tooLarge {w} (new : p.completed = false) (large : p.isOversized = true) :
    WriteStep c d id p w { c.complete id (.error (Framing.tooLarge p.frameSize)) with
      carrier := .driving { d with writing := false } }
  | written (new : p.completed = false) (fits : p.isOversized = false) :
    WriteStep c d id p .done { { c.updatePacket id (·.markSent c.now) with
        pending := c.pending.filter (fun q : Xid × PacketId => q.1 != p.xid) ++
          [(p.xid, id)] }.record
          (.written id) with
      carrier := .driving { d with writing := false } }
  | stalled (new : p.completed = false) (fits : p.isOversized = false) :
    WriteStep c d id p .stalled
      { c with retry := id :: c.retry, carrier := .driving { d with writing := true } }
  | broken (new : p.completed = false) (fits : p.isOversized = false) (f : Failure) :
    WriteStep c d id p (.broken f)
      ({ c with retry := c.retry ++ [id] }.sessionFailed (.connectionLoss f.message))

theorem writeStep_of_eq {c c' : Connection} {d : Drive} {id : PacketId} {p : Packet} {w : Writing}
    (h : c' = c.writeRequest d id p w) : WriteStep c d id p w c' := by
  unfold writeRequest at h
  simp only at h
  split at h
  · exact h ▸ .skipped ‹_›
  rename_i open_
  have new := Bool.eq_false_iff.mpr open_
  split at h
  · exact h ▸ .tooLarge new ‹_›
  rename_i small
  have fits := Bool.eq_false_iff.mpr small
  cases w with
  | done => exact h ▸ .written new fits
  | stalled => exact h ▸ .stalled new fits
  | broken f => exact h ▸ .broken new fits f

/-- Whether the carrier waits for the next frame and for the clocks. -/
structure Ready (c : Connection) (d : Drive) : Prop where
  unasked : c.shutdown = false
  whole : d.writing = false
  repeated : c.retry = []

inductive SessionStep (c : Connection) (d : Drive) : Action → Connection → Prop where
  | heard (ready : Ready c d) (f : ServerFrame) :
    SessionStep c d (.receive (.ok f))
      (({ c with carrier := .driving { d with lastFrame := c.now } }.record (.received f)).handle
        { d with lastFrame := c.now } f)
  | cut (ready : Ready c d) (f : Failure) :
    SessionStep c d (.receive (.error f)) (c.sessionFailed (.connectionLoss f.message))
  | expired {ping} (ready : Ready c d) (due : d.expiry ≤ c.now) :
    SessionStep c d (.tick ping) (c.sessionFailed .sessionExpired)
  | silent {ping} (ready : Ready c d) (alive : c.now < d.expiry)
    (due : d.silenceEnd c.settings ≤ c.now) :
    SessionStep c d (.tick ping) (c.sessionFailed (.readTimeout c.settings.readTimeoutMs))
  | pinged (ready : Ready c d) (alive : c.now < d.expiry ∧ c.now < d.silenceEnd c.settings)
    (due : d.nextPing c.settings ≤ c.now) :
    SessionStep c d (.tick (.ok ()))
      ({ c with carrier := .driving { d with lastPing := c.now } }.record .pinged)
  | unpinged (ready : Ready c d) (alive : c.now < d.expiry ∧ c.now < d.silenceEnd c.settings)
    (due : d.nextPing c.settings ≤ c.now) (f : Failure) :
    SessionStep c d (.tick (.error f))
      ({ c with carrier := .driving { d with lastPing := c.now } }.sessionFailed
        (.connectionLoss f.message))
  | hungUp (asked : c.shutdown = true) (whole : d.writing = false) (told : Bool) :
    SessionStep c d (.hangUp told) (c.record (.ended told)).closeOut

theorem ready_of_not {c : Connection} {d : Drive}
    (h : ¬(c.shutdown || d.writing || !c.retry.isEmpty) = true) : Ready c d := by
  simp only [Bool.or_eq_true, not_or, Bool.not_eq_true, Bool.not_eq_false',
    List.isEmpty_iff] at h
  exact ⟨h.1.1, h.1.2, h.2⟩

theorem sessionStep_of_receive {c c' : Connection} {r : Except Failure ServerFrame}
    (h : c.receive r = some c') :
    ∃ d, c.carrier = .driving d ∧ SessionStep c d (.receive r) c' := by
  unfold receive at h
  split at h
  · rename_i d driving
    refine ⟨d, driving, ?_⟩
    split at h
    · cases h
    · rename_i busy
      have ready := ready_of_not busy
      cases r with
      | ok f => exact Option.some.inj h ▸ .heard ready f
      | error f => exact Option.some.inj h ▸ .cut ready f
  · cases h

theorem sessionStep_of_tick {c c' : Connection} {ping : Except Failure Unit}
    (h : c.tick ping = some c') :
    ∃ d, c.carrier = .driving d ∧ SessionStep c d (.tick ping) c' := by
  unfold tick at h
  split at h
  · rename_i d driving
    refine ⟨d, driving, ?_⟩
    split at h
    · cases h
    rename_i busy
    have ready := ready_of_not busy
    split at h
    · rename_i due
      exact Option.some.inj h ▸ .expired ready due
    rename_i unexpired
    split at h
    · rename_i due
      exact Option.some.inj h ▸ .silent ready (Nat.lt_of_not_le unexpired) due
    rename_i heard
    split at h
    · rename_i due
      have alive := And.intro (Nat.lt_of_not_le unexpired) (Nat.lt_of_not_le heard)
      cases ping with
      | ok _ => exact Option.some.inj h ▸ .pinged ready alive due
      | error f => exact Option.some.inj h ▸ .unpinged ready alive due f
    · cases h
  · cases h

theorem sessionStep_of_hangUp {c c' : Connection} {told : Bool} (h : c.hangUp told = some c') :
    ∃ d, c.carrier = .driving d ∧ SessionStep c d (.hangUp told) c' := by
  unfold hangUp at h
  split at h
  · rename_i d driving
    refine ⟨d, driving, ?_⟩
    split at h
    · rename_i asked
      simp only [Bool.and_eq_true, Bool.not_eq_true'] at asked
      exact Option.some.inj h ▸ .hungUp asked.1 asked.2 told
    · cases h
  · cases h

def Idle (c : Connection) : Prop := (∀ s, c.carrier ≠ .seeking s) ∧ ∀ d, c.carrier ≠ .driving d

/-- Nobody has the connection any more, nor waits for anything from it. -/
structure Deserted (c : Connection) : Prop where
  holding : c.holding = .letGo
  calls : c.calls = []
  senders : c.senders = []
  unawaited : c.packets.any (·.isAwaited) = false

inductive CallStep (c : Connection) : Action → Connection → Prop where
  | sought {t timeout calls} (row : c.calls = (t, .connect timeout) :: calls)
    (alive : c.status ≠ .closed) (free : c.carrier = .free) :
    CallStep c .enter { c with carrier := .seeking (.initial c.now timeout) }
  | turnedAway {t timeout calls} (row : c.calls = (t, .connect timeout) :: calls)
    (late : c.status = .closed ∨ ∀ s, c.carrier = .seeking s → s.resumes = true)
    (r : Except Failure Unit) : CallStep c .enter (c.returnFirst r)
  | closed {t calls} (row : c.calls = (t, .close) :: calls) (idle : Idle c) :
    CallStep c .enter (c.closeOut.returnFirst (.ok ()))
  | left (deserted : Deserted c) (busy : ¬Idle c) :
    CallStep c .drop { c with shutdown := true, holding := .gone }
  | gone (deserted : Deserted c) (idle : Idle c) :
    CallStep c .drop { c with shutdown := true, holding := .gone }.closeOut

theorem callStep_of_enter {c c' : Connection} (h : c.enter = some c') : CallStep c .enter c' := by
  unfold enter at h
  split at h
  · cases h
  · rename_i row
    split at h
    · rename_i closed
      exact Option.some.inj h ▸ .turnedAway row (.inl closed) _
    · rename_i alive
      split at h
      · rename_i free
        exact Option.some.inj h ▸ .sought row alive free
      · cases h
      · rename_i notFirst
        refine Option.some.inj h ▸ .turnedAway row (.inr fun s seeking => ?_) _
        obtain ⟨resumes, _⟩ := s
        cases resumes with
        | true => rfl
        | false => exact (notFirst _ _ _ _ _ _ _ seeking).elim
  · cases h
  · cases h
  · rename_i row notSeeking notDriving
    exact Option.some.inj h ▸ .closed row ⟨notSeeking, notDriving⟩

theorem callStep_of_drop {c c' : Connection} (h : c.drop = some c') : CallStep c .drop c' := by
  unfold drop at h
  split at h
  · rename_i holding calls senders
    split at h
    · cases h
    · rename_i awaited
      have deserted : Deserted c := ⟨holding, calls, senders, Bool.eq_false_iff.mpr awaited⟩
      simp only at h
      split at h
      · rename_i s seeking
        exact Option.some.inj h ▸ .left deserted fun idle => idle.1 s seeking
      · rename_i d driving
        exact Option.some.inj h ▸ .left deserted fun idle => idle.2 d driving
      · rename_i notSeeking notDriving
        exact Option.some.inj h ▸ .gone deserted ⟨notSeeking, notDriving⟩
  · cases h

/-- What was published first is passed on to those who listen; a completion runs its callback. -/
inductive DeliverStep (c : Connection) : Connection → Prop where
  | ran {k rest} (head : c.dispatches = .completion k :: rest) :
    DeliverStep c (({ c with dispatches := rest }.record
      (.delivered (.completion k) (c.audience (.completion k)))).invoke k)
  | told {d rest} (head : c.dispatches = d :: rest) (topic : d.topic? ≠ none) :
    DeliverStep c ({ c with dispatches := rest }.record (.delivered d (c.audience d)))

theorem deliverStep_of_deliver {c c' : Connection} (h : c.deliver = some c') :
    DeliverStep c c' := by
  unfold deliver at h
  split at h
  · cases h
  · rename_i d rest head
    cases d with
    | completion k => exact Option.some.inj h ▸ .ran head
    | _ => exact Option.some.inj h ▸ .told head (by simp [Dispatch.topic?])

inductive Stepped (c : Connection) : Action → Connection → Prop where
  | passed (time : Nat) : Stepped c (.advance time) { c with now := c.now + time }
  | listed (endpoints : List Endpoint) :
    Stepped c (.updateRoster endpoints) (c.updateRoster endpoints).2
  | listened (topic : Topic) : Stepped c (.listen topic) (c.listen topic)
  | unlistened (id : ListenerId) : Stepped c (.unlisten id) (c.unlisten id).2
  | letGo : Stepped c .letGo c.letGo
  | called (timeout : Nat) : Stepped c (.callConnect timeout) (c.callConnect timeout)
  | asked : Stepped c .callClose c.callClose
  | sent {a t c'} (actor : c.actor a = some t) (m : SendMove c t c') : Stepped c a c'
  | call {a c'} (m : CallStep c a c') : Stepped c a c'
  | searched {s a c'} (seeking : c.carrier = .seeking s) (m : SearchStep c s a c') : Stepped c a c'
  | wrote {d id p c₁ w c'} (driving : c.carrier = .driving d) (takes : Takes c id c₁)
    (packet : c₁.packets[id]? = some p) (m : WriteStep c₁ d id p w c') : Stepped c (.write w) c'
  | used {d a c'} (driving : c.carrier = .driving d) (m : SessionStep c d a c') : Stepped c a c'
  | delivered {c'} (m : DeliverStep c c') : Stepped c .deliver c'

theorem stepped_of_step {c c' : Connection} {a : Action} (h : c.step a = some c') :
    Stepped c a c' := by
  unfold step at h
  split at h
  · cases h
  cases a with
  | advance time => exact Option.some.inj h ▸ .passed time
  | updateRoster endpoints => exact Option.some.inj h ▸ .listed endpoints
  | listen topic => exact Option.some.inj h ▸ .listened topic
  | unlisten id => exact Option.some.inj h ▸ .unlistened id
  | beginSend op request callback =>
    exact Option.some.inj h ▸ .sent rfl (c.sendMove_beginSend op request callback)
  | reserve i =>
    obtain ⟨t, actor, m⟩ := sendMove_reserve h
    exact .sent actor m
  | number i =>
    obtain ⟨t, actor, m⟩ := sendMove_number h
    exact .sent actor m
  | enqueue i =>
    obtain ⟨t, actor, m⟩ := sendMove_enqueue h
    exact .sent actor m
  | callConnect timeout => exact Option.some.inj h ▸ .called timeout
  | callClose => exact Option.some.inj h ▸ .asked
  | letGo => exact Option.some.inj h ▸ .letGo
  | enter => exact .call (callStep_of_enter h)
  | drop => exact .call (callStep_of_drop h)
  | seek =>
    obtain ⟨s, seeking, m⟩ := searchStep_of_seek h
    exact .searched seeking m
  | answer r =>
    obtain ⟨s, seeking, m⟩ := searchStep_of_answer h
    exact .searched seeking m
  | timeOut =>
    obtain ⟨s, seeking, m⟩ := searchStep_of_timeOut h
    exact .searched seeking m
  | stop =>
    obtain ⟨s, seeking, m⟩ := searchStep_of_stop h
    exact .searched seeking m
  | write w =>
    obtain ⟨d, id, p, c₁, driving, takes, packet, written⟩ := takes_of_write h
    exact .wrote driving takes packet (writeStep_of_eq written)
  | receive r =>
    obtain ⟨d, driving, m⟩ := sessionStep_of_receive h
    exact .used driving m
  | tick ping =>
    obtain ⟨d, driving, m⟩ := sessionStep_of_tick h
    exact .used driving m
  | hangUp told =>
    obtain ⟨d, driving, m⟩ := sessionStep_of_hangUp h
    exact .used driving m
  | deliver => exact .delivered (deliverStep_of_deliver h)

theorem SearchStep.actor {c c' : Connection} {s : Search} {a : Action}
    (m : SearchStep c s a c') : c.actor a = none := by
  cases m with
  | stopped stops => rcases stops with rfl | rfl <;> rfl
  | _ => rfl

theorem SessionStep.actor {c c' : Connection} {d : Drive} {a : Action}
    (m : SessionStep c d a c') : c.actor a = none := by
  cases m <;> rfl

theorem CallStep.actor {c c' : Connection} {a : Action} (m : CallStep c a c') :
    c.actor a = none := by
  cases m <;> rfl

end Connection
end ServiceDirectory
