import Mathlib.Data.List.Chain
import ServiceDirectory.Proofs.Connection.Protocol

/-! What the listeners of a connection are told about its status. Every event begins with the status
that the one before ended with, the first with that of a new connection, and none leaves the status
as it is. After the end of a connection nothing is told. -/
namespace ServiceDirectory.Connection

def Event.status? : Event → Option (ConnectionStatus × ConnectionStatus)
  | .published (.status previous next) => some (previous, next)
  | _ => none

def changes (es : List Event) : List (ConnectionStatus × ConnectionStatus) :=
  es.filterMap Event.status?

def statuses (c : Connection) : List (ConnectionStatus × ConnectionStatus) :=
  changes c.history.reverse

theorem changes_append (es new : List Event) : changes (es ++ new) = changes es ++ changes new :=
  List.filterMap_append

theorem changes_turns (c : Connection) : changes c.turns = c.statuses := by
  rw [turns, ← List.filter_reverse, changes, List.filterMap_filter]
  refine congrArg (List.filterMap · c.history.reverse) (funext fun e => ?_)
  cases e with
  | published d => cases d <;> rfl
  | received f => cases f <;> rfl
  | _ => rfl

/-- A row of changes that lead from the status of a new connection to this one. -/
structure Chained (events : List (ConnectionStatus × ConnectionStatus))
    (status : ConnectionStatus) : Prop where
  first : ∀ e ∈ events.head?, e.1 = .new
  linked : events.IsChain fun e next => next.1 = e.2 ∧ e.2 ≠ .closed
  moves : ∀ e ∈ events, e.1 ≠ e.2
  ended : status = (events.getLast?.map (·.2)).getD .new

namespace Chained

variable {events : List (ConnectionStatus × ConnectionStatus)} {status next : ConnectionStatus}

theorem start : Chained [] .new :=
  ⟨by simp, .nil, by simp, rfl⟩

theorem append (h : Chained events status) (other : status ≠ next) (alive : status ≠ .closed) :
    Chained (events ++ [(status, next)]) next := by
  refine ⟨fun e he => ?_, ?_, fun e he => ?_, ?_⟩
  · cases events with
    | nil =>
      obtain rfl : (status, next) = e := Option.some.inj he
      exact h.ended
    | cons first rest => exact h.first e he
  · refine List.isChain_append.mpr ⟨h.linked, .singleton _, fun e he e' he' => ?_⟩
    obtain rfl : (status, next) = e' := Option.some.inj he'
    have last : status = e.2 := by
      rw [h.ended, he]
      rfl
    exact ⟨last, last ▸ alive⟩
  · rcases List.mem_append.mp he with he | he
    · exact h.moves e he
    · obtain rfl := List.mem_singleton.mp he
      exact other
  · rw [List.getLast?_concat]
    rfl

end Chained

/-- Nothing is told and the status stays, or its change is told and it was not the end. -/
def Tells (es : List Event) (previous next : ConnectionStatus) : Prop :=
  changes es = [] ∧ next = previous ∨
    changes es = [(previous, next)] ∧ previous ≠ next ∧ previous ≠ .closed

theorem tells_moved {previous next : ConnectionStatus} (h : previous = .closed → next = .closed) :
    Tells (moved previous next) previous next := by
  unfold moved
  split
  · rename_i still
    refine .inl ⟨rfl, ?_⟩
    rcases still with same | closed
    · exact same.symm
    · exact (h closed).trans closed.symm
  · rename_i turns
    obtain ⟨other, alive⟩ := not_or.mp turns
    exact .inr ⟨rfl, other, alive⟩

/-- Every change of the status is told, and a connection that is closed stays so. -/
theorem Leap.tells {p p' : Phase} {es : List Event} (leap : Leap p es p')
    (suits : p.stance.suits p.status p.id) : Tells es p.status p'.status := by
  have alive {status : ConnectionStatus} (idle : status.isIdle = true) : status ≠ .closed :=
    ConnectionStatus.ne_closed_of_isIdle idle
  have opens {status : ConnectionStatus} {s : Session} {es : List Event}
      (idle : status.isIdle = true) (told : changes es = [(status, s.status)]) :
      Tells es status s.status :=
    .inr ⟨told, ConnectionStatus.ne_status_of_isIdle idle s, alive idle⟩
  have loses {s : Session} {es : List Event} (told : changes es = [(s.status, .notConnected)]) :
      Tells es s.status .notConnected :=
    .inr ⟨told, s.status_ne_notConnected, s.status_ne_closed⟩
  -- Of the leaps that tell about the status, three may find the new status to be the old one.
  cases leap with
  | stay p => exact .inl ⟨rfl, rfl⟩
  | sought status => exact .inl ⟨rfl, rfl⟩
  | attempted resumes offer status id e => exact .inl ⟨rfl, rfl⟩
  | rejected resumes offer status id =>
    exact tells_moved fun closed => absurd closed (alive suits.1)
  | created status s e => exact opens suits.1 rfl
  | reopened status s e => exact opens suits.1 rfl
  | resumed status s => exact opens suits.1 rfl
  | replaced status other e e' => exact opens suits.1 rfl
  | lost s kept => exact loses rfl
  | expired s e cause =>
    refine loses ?_
    rcases cause with rfl | rfl <;> rfl
  | gaveUp status => exact tells_moved fun closed => absurd closed (alive suits.1)
  | withdrew status => exact .inl ⟨rfl, rfl⟩
  | closed stance alive id e => exact .inr ⟨rfl, alive, alive⟩
  | shut stance status => exact tells_moved fun _ => rfl

theorem Life.chained {es : List Event} {p : Phase} (life : Life es p) :
    Chained (changes es) p.status := by
  induction life with
  | start => exact .start
  | leap life next ih =>
    rw [changes_append]
    rcases next.tells life.suits with ⟨none, same⟩ | ⟨one, other, alive⟩
    · rw [none, same, List.append_nil]
      exact ih
    · rw [one]
      exact ih.append other alive

theorem Reachable.statuses_of_closed {settings : Settings} {roster : Roster} {c c' : Connection}
    {a : Action} (h : Reachable settings roster c) (closed : c.status = .closed)
    (taken : c.step a = some c') : c'.status = .closed ∧ c'.statuses = c.statuses := by
  obtain ⟨es, turns, next⟩ := (turn_of_step taken).leaps h.suits
  rcases next.tells h.suits with ⟨none, same⟩ | ⟨-, -, alive⟩
  · refine ⟨same.trans closed, ?_⟩
    rw [← changes_turns, turns, changes_append, none, List.append_nil, changes_turns]
  · exact absurd closed alive

/-- The status events of a connection form a chain: the first begins with the status of a new
connection, each of the others with what the one before ended with, and none follows the end of the
connection. They all change the status, which is at any time what the last of them said. Once the
connection is closed, no step changes that or tells anything more. -/
theorem Reachable.statuses_chained {settings : Settings} {roster : Roster} {c : Connection}
    (h : Reachable settings roster c) :
    (∀ e ∈ c.statuses.head?, e.1 = .new) ∧
    (c.statuses.IsChain fun e next => next.1 = e.2 ∧ e.2 ≠ .closed) ∧
    (∀ e ∈ c.statuses, e.1 ≠ e.2) ∧
    c.status = (c.statuses.getLast?.map (·.2)).getD .new ∧
    (c.status = .closed → ∀ actions d, c.run actions = some d →
      d.status = .closed ∧ d.statuses = c.statuses) := by
  have chained := changes_turns c ▸ h.life.chained
  refine ⟨chained.first, chained.linked, chained.moves, chained.ended, ?_⟩
  intro closed actions d run
  have still : Reachable settings roster d ∧ d.status = .closed ∧ d.statuses = c.statuses := by
    refine run_invariant (P := fun d => Reachable settings roster d ∧ d.status = .closed ∧
      d.statuses = c.statuses) (fun a hb taken => ?_) ⟨h, closed, rfl⟩ run
    obtain ⟨reached, closed, same⟩ := hb
    obtain ⟨still, none⟩ := reached.statuses_of_closed closed taken
    exact ⟨.step a reached taken, still, none.trans same⟩
  exact still.2

/-- A connection that is closed by its caller while it looks for another session. -/
theorem statuses_chained_of_close : ∃ c : Connection, Reachable {}
    { endpoints := [⟨"localhost", 7000⟩], nonempty := by simp } c ∧
    c.statuses = [(.new, .connected), (.connected, .notConnected), (.notConnected, .closed)] ∧
    ∀ actions d, c.run actions = some d → d.status = .closed ∧ d.statuses = c.statuses := by
  have outcome : ((start {} { endpoints := [⟨"localhost", 7000⟩], nonempty := by simp }).run
      [.callConnect 1000, .enter, .seek, .seek, .seek,
        .answer (.ok (.connected { sessionId := 7, sessionTimeoutMs := 0 })),
        .receive (.error (Framing.failure "reading length prefix" Inlet.earlyEof)),
        .seek, .seek, .seek, .callClose, .stop, .enter]).map
      (fun c => (c.status, c.statuses)) = some (.closed,
        [(.new, .connected), (.connected, .notConnected), (.notConnected, .closed)]) := by
    decide +kernel
  obtain ⟨c, run, facts⟩ := Option.map_eq_some_iff.mp outcome
  obtain ⟨closed, events⟩ := Prod.mk.inj facts
  have reached := Reachable.start.run run
  obtain ⟨-, -, -, -, terminal⟩ := reached.statuses_chained
  exact ⟨c, reached, events, terminal closed⟩

end ServiceDirectory.Connection
