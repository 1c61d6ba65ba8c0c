import ServiceDirectory.Proofs.Connection.Consistency
import ServiceDirectory.Proofs.Connection.Sessions

/-! Which servers the events of sessions name. The endpoint is read when the event is published. By
then the connection is already on the server of the new session when another session takes the
place of the old one, and so the end of the old one is told with an endpoint that may never have
had it. All other events name the endpoint that their session was on last. -/
namespace ServiceDirectory.Connection

def Event.opened? : Event → Option Session
  | .opened s => some s
  | _ => none

/-- The sessions that were opened, in this order; one that was taken up again counts again. -/
def openings (es : List Event) : List Session := es.filterMap Event.opened?

theorem openings_append (es new : List Event) :
    openings (es ++ new) = openings es ++ openings new :=
  List.filterMap_append

theorem openings_moved (previous next : ConnectionStatus) :
    openings (moved previous next) = [] := by
  unfold moved
  split <;> rfl

/-- The endpoint that the session with an id was on last. -/
def station (id : SessionId) (es : List Event) : Option Endpoint :=
  ((openings es).reverse.find? (·.id = id)).map (·.endpoint)

theorem station_append {new : List Event} (h : openings new = []) (id : SessionId)
    (es : List Event) : station id (es ++ new) = station id es := by
  rw [station, openings_append, h, List.append_nil, station]

theorem station_of_getLast {es : List Event} {s : Session}
    (h : (openings es).getLast? = some s) : station s.id es = some s.endpoint := by
  rw [List.getLast?_eq_head?_reverse] at h
  obtain ⟨rest, split⟩ := List.head?_eq_some_iff.mp h
  simp [station, split]

theorem station_opened (es : List Event) (s : Session) :
    station s.id (es ++ [.opened s]) = some s.endpoint :=
  station_of_getLast (by rw [openings_append]; exact List.getLast?_concat)

theorem Life.openings {es : List Event} {p : Phase} (life : Life es p) :
    (∀ s, p.stance = .driving s → (openings es).getLast? = some s) ∧
      (p.stance = .free ∨ p.stance = .seeking false none → openings es = []) := by
  induction life with
  | start => exact ⟨by simp, fun _ => rfl⟩
  | @leap es new p p' life next ih =>
    obtain ⟨last, fresh⟩ := ih
    rw [openings_append]
    have opened {s s' : Session} (h : Stance.driving s = .driving s') :
        (Connection.openings es ++ [s]).getLast? = some s' := by
      rw [List.getLast?_concat, Stance.driving.inj h]
    cases next with
    | stay p =>
      rw [show Connection.openings [] = [] from rfl, List.append_nil]
      exact ⟨last, fresh⟩
    | sought status => exact ⟨by simp, fun _ => by rw [fresh (.inl rfl)]; rfl⟩
    | attempted resumes offer status id e =>
      exact ⟨by simp, fun first => by rw [fresh first]; rfl⟩
    | rejected resumes offer status id =>
      rw [openings_moved, List.append_nil]
      exact ⟨by simp, fresh⟩
    | created | reopened | resumed | replaced => exact ⟨fun _ => opened, by simp⟩
    | lost | expired => exact ⟨by simp, by simp⟩
    | gaveUp status =>
      rw [openings_moved, List.append_nil]
      exact ⟨by simp, fun _ => fresh (.inr rfl)⟩
    | withdrew status => exact ⟨by simp, fun _ => by rw [fresh (.inr rfl)]; rfl⟩
    | closed stance alive id e => exact ⟨by simp, by simp⟩
    | shut stance status => exact ⟨by simp, by simp⟩

def Located (c : Connection) : Prop :=
  ∀ id e, c.sessionId = some id → c.endpoint = some e → station id c.turns = some e

theorem Reachable.located {settings : Settings} {roster : Roster} {c : Connection}
    (h : Reachable settings roster c) : Located c := by
  intro id e recorded on
  by_cases uses : ∃ s, c.pursuit = .driving s
  · obtain ⟨s, driving⟩ := uses
    obtain ⟨-, endpoint, same, -⟩ := h.recorded driving
    obtain rfl := Option.some.inj (recorded.symm.trans same)
    obtain rfl := Option.some.inj (on.symm.trans endpoint)
    obtain ⟨d, carrier, rfl⟩ := pursuit_eq_driving.mp driving
    refine station_of_getLast (h.life.openings.1 d.session ?_)
    rw [phase, stance, carrier]
    rfl
  · rw [(h.unrecorded (not_exists.mp uses)).1] at on
    cases on

/-- The endpoint of a session event is the one that its session was on last, or it is that of the
session that has just taken the place of the one that ended. -/
def Event.placed (before : List Event) : Event → Prop
  | .published (.session event id (some e)) =>
    station id before = some e ∨
      event = .closed ∧ ∃ earlier s, before = earlier ++ [.opened s] ∧ s.id ≠ id ∧ e = s.endpoint
  | _ => True

def Placed (es : List Event) : Prop := Throughout (fun before e _ => e.placed before) es

theorem Event.placed_of_quiet {e : Event} (quiet : e.session? = none) (before : List Event) :
    e.placed before := by
  unfold Event.placed
  split
  · cases quiet
  · trivial

namespace Placed

variable {es new : List Event}

theorem concat (h : Placed es) {e : Event} (he : e.placed es) : Placed (es ++ [e]) := by
  refine h.append (fun _ _ _ placed => placed) (throughout_cons.mpr ⟨?_, throughout_nil⟩)
  rw [List.append_nil]
  exact he

theorem quiet (h : Placed es) (none : told new = []) : Placed (es ++ new) := by
  refine h.append (fun _ _ _ placed => placed) fun before e after split => ?_
  refine Event.placed_of_quiet (List.filterMap_eq_nil_iff.mp none e ?_) _
  simp [split]

theorem closed (h : Placed es) {c : Connection} (located : Located c)
    (same : openings es = openings c.turns) : Placed (es ++ c.sessionId.toList.map fun id =>
      .published (.session .closed id c.endpoint)) := by
  cases recorded : c.sessionId with
  | none =>
    rw [Option.toList_none, List.map_nil, List.append_nil]
    exact h
  | some id =>
    refine h.concat ?_
    cases on : c.endpoint with
    | none => trivial
    | some e =>
      have last := located id e recorded on
      rw [station, ← same] at last
      exact .inl last

end Placed

theorem Steady.located {c c' : Connection} (q : Steady c c') (h : Located c) : Located c' := by
  intro id e recorded on
  rw [q.sessionId] at recorded
  rw [q.endpoint] at on
  rw [q.turns]
  exact h id e recorded on

theorem placed_sessionStarted {c : Connection} (h : Placed c.turns) (s : Session)
    (search : Search) : Placed (c.sessionStarted s search).turns := by
  have opened : Placed (c.turns ++ [.opened s]) := h.quiet rfl
  have began (event : SessionEvent) {es : List Event}
      (placed : Placed (es ++ moved c.status s.status))
      (last : station s.id es = some s.endpoint) : Placed ((es ++ moved c.status s.status) ++
        [.published (.session event s.id (some s.endpoint))]) := by
    refine placed.concat (.inl ?_)
    rw [station_append (openings_moved _ _)]
    exact last
  have here := station_opened c.turns s
  have begun (event : SessionEvent) := began event (opened.quiet (told_moved _ _)) here
  rw [turns_sessionStarted, List.append_cons]
  cases search.resumes with
  | false =>
    simp only [← List.append_assoc]
    exact begun .created
  | true =>
    cases search.offer with
    | none =>
      simp only [← List.append_assoc]
      exact begun .reopen
    | some old =>
      simp only
      split
      · exact opened.quiet (told_moved _ _)
      · rename_i other
        have ended : Placed ((c.turns ++ [.opened s]) ++
            [.published (.session .closed old (some s.endpoint))]) :=
          opened.concat (.inr ⟨rfl, c.turns, s, rfl, fun same => other same.symm, rfl⟩)
        rw [List.cons_append, List.append_cons, ← List.append_assoc]
        refine began .reopen (ended.quiet (told_moved _ _)) ?_
        rw [station_append rfl]
        exact here

theorem placed_sessionFailed {c : Connection} (h : Placed c.turns) (located : Located c)
    (f : Failure) : Placed (c.sessionFailed f).turns := by
  have lost : Placed (c.turns ++ [.lost f]) := h.quiet rfl
  have same : openings (c.turns ++ [.lost f]) = openings c.turns := by
    rw [openings_append]
    exact List.append_nil _
  rw [turns_sessionFailed]
  refine Placed.quiet ?_ (told_moved _ _)
  split
  · exact lost.closed located same
  · rw [List.map_nil, List.append_nil]
    exact lost

theorem Turn.placed {c c' : Connection} (t : Turn c c') (h : Placed c.turns)
    (located : Located c) : Placed c'.turns := by
  cases t with
  | steady q =>
    rw [q.turns]
    exact h
  | sought idle alive timeout => exact h
  | @attempted s e _ seeking q =>
    rw [q.turns, turns_record rfl]
    exact h.quiet rfl
  | rejected seeking before =>
    rw [turns_transition, before.turns]
    exact h.quiet (told_moved _ _)
  | @opened search s d _ seeking uses after =>
    rw [after.turns]
    exact placed_sessionStarted h s search
  | lost driving before =>
    rw [← before.turns] at h
    exact placed_sessionFailed h (before.located located) _
  | @expired d c₁ driving before =>
    have pushed : Placed (c₁.record (.received .sessionExpired)).turns := by
      rw [turns_record rfl, before.turns]
      exact h.quiet rfl
    refine placed_sessionFailed pushed (fun id e recorded on => ?_) _
    rw [turns_record rfl, station_append rfl]
    exact before.located located id e recorded on
  | @gaveUp s f c₁ seeking first before =>
    rw [turns_connectFailed, before.turns]
    split
    · rw [List.append_nil]
      exact h
    · exact h.quiet (told_moved _ _)
  | @withdrew s c₁ _ seeking first before after =>
    have kept : ({ c₁ with carrier := .free } : Connection).turns = c.turns := before.turns
    rw [after.turns, kept]
    exact h
  | @closedOut c₁ _ before after drained =>
    rw [after.turns, turns_closeOut]
    rw [← before.turns] at h
    exact (h.closed (before.located located) rfl).quiet (told_moved _ _)

theorem Reachable.placed {settings : Settings} {roster : Roster} {c : Connection}
    (h : Reachable settings roster c) : Placed c.turns := by
  induction h with
  | start => exact throughout_nil
  | step a reached taken ih => exact (turn_of_step taken).placed ih reached.located

/-- An endpoint in a session event is the one that its session was on last; only the end of a
session in whose place another has just been opened is told with the endpoint of the other. -/
theorem Reachable.events_placed {settings : Settings} {roster : Roster} {c : Connection}
    (h : Reachable settings roster c) {before after : List Event} {event : SessionEvent}
    {id : SessionId} {e : Endpoint}
    (told : c.turns = before ++ .published (.session event id (some e)) :: after) :
    station id before = some e ∨
      event = .closed ∧ ∃ earlier s, before = earlier ++ [.opened s] ∧ s.id ≠ id ∧
        e = s.endpoint :=
  h.placed before _ after told

def Event.placement? : Event → Option (SessionEvent × SessionId × Option Endpoint)
  | .published (.session event id endpoint) => some (event, id, endpoint)
  | _ => none

theorem exists_split_of_placement {es : List Event} {event : SessionEvent} {id : SessionId}
    {endpoint : Option Endpoint} (h : (event, id, endpoint) ∈ es.filterMap Event.placement?) :
    ∃ before after, es = before ++ .published (.session event id endpoint) :: after := by
  obtain ⟨e, mem, same⟩ := List.mem_filterMap.mp h
  unfold Event.placement? at same
  split at same
  · obtain ⟨rfl, rfl, rfl⟩ := Option.some.inj same
    exact List.append_of_mem mem
  · cases same

/-- A session that was taken up again on another server and expired there. -/
theorem events_placed_of_expired : ∃ (c : Connection) (before after : List Event), Reachable {}
    { endpoints := [⟨"a", 1⟩, ⟨"b", 2⟩], nonempty := by simp } c ∧
    c.turns = before ++ .published (.session .closed 7 (some ⟨"b", 2⟩)) :: after ∧
    station 7 before = some ⟨"b", 2⟩ := by
  have outcome : ((start {} { endpoints := [⟨"a", 1⟩, ⟨"b", 2⟩], nonempty := by simp }).run
      [.callConnect 1000, .enter, .seek, .seek, .seek,
        .answer (.ok (.connected { sessionId := 7, sessionTimeoutMs := 500 })),
        .receive (.error (Framing.failure "reading length prefix" Inlet.earlyEof)),
        .seek, .seek, .seek,
        .answer (.ok (.connected { sessionId := 7, sessionTimeoutMs := 500 })),
        .receive (.ok .sessionExpired)]).map (fun c =>
      (c.turns.filterMap Event.placement?, (openings c.turns).map (·.id))) =
      some ([(.created, 7, some ⟨"a", 1⟩), (.closed, 7, some ⟨"b", 2⟩)], [7, 7]) := by
    decide +kernel
  obtain ⟨c, run, facts⟩ := Option.map_eq_some_iff.mp outcome
  simp only [Prod.mk.injEq] at facts
  obtain ⟨placements, ids⟩ := facts
  have reached := Reachable.start.run run
  have listed : (.closed, 7, some ⟨"b", 2⟩) ∈ c.turns.filterMap Event.placement? := by
    simp [placements]
  obtain ⟨before, after, split⟩ := exists_split_of_placement listed
  refine ⟨c, before, after, reached, split, ?_⟩
  rcases reached.events_placed split with last | ⟨-, earlier, s, front, other, -⟩
  · exact last
  · have used : s.id ∈ (openings c.turns).map (·.id) := by
      rw [split, front]
      simp [openings, Event.opened?]
    rw [ids] at used
    simp [other] at used

/-- A session that was only on the first server, and whose end is told with the second: there the
server has opened another one when it was to be taken up again. -/
theorem exists_misplaced : ∃ (c : Connection) (before after : List Event), Reachable {}
    { endpoints := [⟨"a", 1⟩, ⟨"b", 2⟩], nonempty := by simp } c ∧
    c.turns = before ++ .published (.session .closed 7 (some ⟨"b", 2⟩)) :: after ∧
    station 7 c.turns = some ⟨"a", 1⟩ ∧
    ∀ s ∈ openings c.turns, s.id = 7 → s.endpoint = ⟨"a", 1⟩ := by
  have outcome : ((start {} { endpoints := [⟨"a", 1⟩, ⟨"b", 2⟩], nonempty := by simp }).run
      [.callConnect 1000, .enter, .seek, .seek, .seek,
        .answer (.ok (.connected { sessionId := 7, sessionTimeoutMs := 500 })),
        .receive (.error (Framing.failure "reading length prefix" Inlet.earlyEof)),
        .seek, .seek, .seek,
        .answer (.ok (.connected { sessionId := 8, sessionTimeoutMs := 500 }))]).map (fun c =>
      (c.turns.filterMap Event.placement?, station 7 c.turns,
        (openings c.turns).map fun s => (s.id, s.endpoint))) =
      some ([(.created, 7, some ⟨"a", 1⟩), (.closed, 7, some ⟨"b", 2⟩),
        (.reopen, 8, some ⟨"b", 2⟩)], some ⟨"a", 1⟩, [(7, ⟨"a", 1⟩), (8, ⟨"b", 2⟩)]) := by
    decide +kernel
  obtain ⟨c, run, facts⟩ := Option.map_eq_some_iff.mp outcome
  simp only [Prod.mk.injEq] at facts
  obtain ⟨placements, last, places⟩ := facts
  have listed : (.closed, 7, some ⟨"b", 2⟩) ∈ c.turns.filterMap Event.placement? := by
    simp [placements]
  obtain ⟨before, after, split⟩ := exists_split_of_placement listed
  refine ⟨c, before, after, Reachable.start.run run, split, last, fun s opened same => ?_⟩
  have place := List.mem_map_of_mem (f := fun s => (s.id, s.endpoint)) opened
  rw [places] at place
  simpa [same] using place

end ServiceDirectory.Connection
