import ServiceDirectory.Connection.Callers
import ServiceDirectory.Connection.Carrier
import ServiceDirectory.Connection.Delivery

/-! A connection as a machine: its steps come in any order, and what the network does comes with
them. A step that cannot be taken is none. -/
namespace ServiceDirectory.Connection

inductive Action where
  | advance (time : Nat)
  | updateRoster (endpoints : List Endpoint)
  | listen (topic : Topic)
  | unlisten (id : ListenerId)
  | beginSend (op : OpCode) (request : ByteArray) (callback : Callback)
  | reserve (i : Nat)
  | number (i : Nat)
  | enqueue (i : Nat)
  | callConnect (timeout : Nat)
  | callClose
  | letGo
  | enter
  | drop
  | seek
  | answer (r : Except Failure ServerFrame)
  | timeOut
  | stop
  | write (w : Writing)
  | receive (r : Except Failure ServerFrame)
  | tick (ping : Except Failure Unit)
  | hangUp (told : Bool)
  | deliver

/-- Whether an action is the caller's, who has to hold the connection for it. -/
def Action.isCall : Action → Bool
  | .updateRoster _ | .listen _ | .unlisten _ | .beginSend _ _ _ => true
  | .callConnect _ | .callClose | .letGo => true
  | _ => false

def step (c : Connection) (a : Action) : Option Connection :=
  if a.isCall && c.holding != .held then none
  else
    match a with
    | .advance time => some { c with now := c.now + time }
    | .updateRoster endpoints => some (c.updateRoster endpoints).2
    | .listen topic => some (c.listen topic)
    | .unlisten id => some (c.unlisten id).2
    | .beginSend op request callback => some (c.beginSend op request callback)
    | .reserve i => c.reserve i
    | .number i => c.number i
    | .enqueue i => c.enqueue i
    | .callConnect timeout => some (c.callConnect timeout)
    | .callClose => some c.callClose
    | .letGo => some c.letGo
    | .enter => c.enter
    | .drop => c.drop
    | .seek => c.seek
    | .answer r => c.answer r
    | .timeOut => c.timeOut
    | .stop => c.stop
    | .write w => c.write w
    | .receive r => c.receive r
    | .tick ping => c.tick ping
    | .hangUp told => c.hangUp told
    | .deliver => c.deliver

theorem step_write (c : Connection) (w : Writing) : c.step (.write w) = c.write w := rfl

theorem step_receive (c : Connection) (r : Except Failure ServerFrame) :
    c.step (.receive r) = c.receive r := rfl

theorem step_tick (c : Connection) (ping : Except Failure Unit) :
    c.step (.tick ping) = c.tick ping := rfl

theorem step_deliver (c : Connection) : c.step .deliver = c.deliver := rfl

/-- Takes the steps one after the other, as long as they can be taken. -/
def run (c : Connection) (actions : List Action) : Option Connection := actions.foldlM step c

theorem run_nil_eq_some_iff {c c' : Connection} : c.run [] = some c' ↔ c = c' :=
  Option.some_inj

theorem run_cons_eq_some_iff {c c' : Connection} {a : Action} {actions : List Action} :
    c.run (a :: actions) = some c' ↔ ∃ b, c.step a = some b ∧ b.run actions = some c' := by
  rw [run, List.foldlM_cons]
  exact Option.bind_eq_some_iff

/-- A send that nothing comes between. -/
def send (c : Connection) (op : OpCode) (request : ByteArray) (callback : Callback) :
    Connection :=
  let i := c.senders.length
  [Action.reserve i, .number i, .enqueue i].foldl (fun c a => (c.step a).getD c)
    (c.beginSend op request callback)

/-- The states that a connection with these settings and this roster can get into. -/
inductive Reachable (settings : Settings) (roster : Roster) : Connection → Prop where
  | start : Reachable settings roster (.start settings roster)
  | step {c c' : Connection} (a : Action) :
      Reachable settings roster c → c.step a = some c' → Reachable settings roster c'

/-- What every step preserves a run preserves. -/
theorem run_invariant {P : Connection → Prop} {c d : Connection} {actions : List Action}
    (preserved : ∀ {b b' : Connection} (a : Action), P b → b.step a = some b' → P b') (h : P c)
    (run : c.run actions = some d) : P d := by
  induction actions generalizing c with
  | nil =>
    obtain rfl := run_nil_eq_some_iff.mp run
    exact h
  | cons a actions ih =>
    obtain ⟨b, taken, run⟩ := run_cons_eq_some_iff.mp run
    exact ih (preserved a h taken) run

/-- What holds after a run and did not hold before came about in one of its steps. -/
theorem exists_step_of_run {P : Connection → Prop} {c d : Connection} {actions : List Action}
    (run : c.run actions = some d) (before : ¬P c) (after : P d) :
    ∃ front a rest b b', actions = front ++ a :: rest ∧ c.run front = some b ∧
      b.step a = some b' ∧ ¬P b ∧ P b' ∧ b'.run rest = some d := by
  induction actions generalizing c with
  | nil =>
    obtain rfl := run_nil_eq_some_iff.mp run
    exact absurd after before
  | cons a actions ih =>
    obtain ⟨b, taken, run⟩ := run_cons_eq_some_iff.mp run
    by_cases here : P b
    · exact ⟨[], a, actions, c, b, rfl, rfl, taken, before, here, run⟩
    · obtain ⟨front, a', rest, b₁, b', split, reach, step⟩ := ih run here
      exact ⟨a :: front, a', rest, b₁, b', by rw [split]; rfl,
        run_cons_eq_some_iff.mpr ⟨b, taken, reach⟩, step⟩

theorem Reachable.run {settings : Settings} {roster : Roster} {c c' : Connection}
    {actions : List Action} (h : Reachable settings roster c)
    (hr : c.run actions = some c') : Reachable settings roster c' :=
  run_invariant (fun a h taken => .step a h taken) h hr

end ServiceDirectory.Connection
