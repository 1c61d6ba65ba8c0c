import Mathlib.Data.List.Induction
import ServiceDirectory.Proofs.Connection.Dispatching
import ServiceDirectory.Proofs.Connection.Places

/-! What listeners are told about sessions, together with the notifications. A session begins where
none is on and ends while it is on, and notifications come while one is on; and this is the session
on which the notification came from the server. So a notification is never passed on during another
session than its own. -/
namespace ServiceDirectory

def Dispatch.session? : Dispatch → Option (SessionEvent × SessionId)
  | .session event id _ => some (event, id)
  | _ => none

/-- The session that is on after something was told, by the one that was on before. -/
inductive Dispatch.Leads : Option SessionId → Dispatch → Option SessionId → Prop where
  | begins {event : SessionEvent} (opens : event ≠ .closed) (id : SessionId)
    (e : Option Endpoint) : Leads none (.session event id e) (some id)
  | ends (id : SessionId) (e : Option Endpoint) : Leads (some id) (.session .closed id e) none
  | notices (id : SessionId) (n : Notification) : Leads (some id) (.notification n) (some id)
  | turns (on : Option SessionId) (previous current : ConnectionStatus) :
    Leads on (.status previous current) on
  | completes (on : Option SessionId) (k : Completion) : Leads on (.completion k) on

namespace Connection

def announced (ds : List Dispatch) : List (SessionEvent × SessionId) :=
  ds.filterMap Dispatch.session?

theorem announced_append (ds es : List Dispatch) :
    announced (ds ++ es) = announced ds ++ announced es :=
  List.filterMap_append

inductive Leading : Option SessionId → List Dispatch → Option SessionId → Prop where
  | stays (on : Option SessionId) : Leading on [] on
  | first {on mid on' : Option SessionId} {d : Dispatch} {ds : List Dispatch}
    (one : d.Leads on mid) (rest : Leading mid ds on') : Leading on (d :: ds) on'

namespace Leading

variable {on mid on' : Option SessionId} {ds es : List Dispatch}

theorem eq_of_nil (h : Leading on [] on') : on' = on := by
  cases h
  rfl

theorem append (h : Leading on ds mid) (k : Leading mid es on') : Leading on (ds ++ es) on' := by
  induction h with
  | stays on => exact k
  | first one rest ih => exact .first one (ih k)

theorem split (h : Leading on (ds ++ es) on') : ∃ mid, Leading on ds mid ∧ Leading mid es on' := by
  induction ds generalizing on with
  | nil => exact ⟨on, .stays on, h⟩
  | cons d ds ih =>
    cases h with
    | first one rest =>
      obtain ⟨mid, before, after⟩ := ih rest
      exact ⟨mid, .first one before, after⟩

theorem split_last {d : Dispatch} (h : Leading on (ds ++ [d]) on') :
    ∃ mid, Leading on ds mid ∧ d.Leads mid on' := by
  obtain ⟨mid, before, last⟩ := h.split
  cases last with
  | first one rest =>
    cases rest
    exact ⟨mid, before, one⟩

theorem current_eq (h : Leading none ds on) : current (announced ds) = on := by
  induction ds using List.reverseRecOn generalizing on with
  | nil =>
    cases h
    rfl
  | append_singleton ds d ih =>
    obtain ⟨mid, before, last⟩ := h.split_last
    have same := ih before
    rw [announced_append]
    cases last with
    | begins opens id e =>
      refine (current_append _ _ _).trans ?_
      rw [if_neg opens]
    | ends id e => exact current_append _ _ _
    | notices | turns | completes => exact (congrArg current (List.append_nil _)).trans same

theorem moved (on : Option SessionId) (previous next : ConnectionStatus) :
    Leading on (published (moved previous next)) on := by
  unfold Connection.moved
  split
  · exact .stays on
  · exact .first (.turns on _ _) (.stays on)

theorem woven {new : List Event} (plain : ∀ e ∈ new, e.isPlain = true)
    (h : Leading on (published (new.filter Event.isTurn)) on') :
    Leading on (published new) on' := by
  induction new generalizing on with
  | nil => exact h
  | cons e new ih =>
    have later : ∀ e ∈ new, e.isPlain = true := fun e he => plain e (List.mem_cons_of_mem _ he)
    have here := plain e List.mem_cons_self
    cases e with
    | published d =>
      cases d with
      | status | session =>
        cases h with
        | first one rest => exact .first one (ih later rest)
      | completion k => exact .first (.completes on k) (ih later h)
      | notification n => cases here
    | received f => 
      cases f <;> exact ih later h
    | _ => exact ih later h

end Leading

/-- Sessions begin and end in their place. -/
theorem Leap.leading {p p' : Phase} {es : List Event} (next : Leap p es p') :
    Leading p.id (published es) p'.id := by
  cases next with
  | stay p => exact .stays _
  | sought | attempted | withdrew => exact .stays _
  | rejected | gaveUp | shut => exact .moved _ _ _
  | created status s e | reopened status s e => 
    exact .first (.turns _ _ _) (.first (.begins (by simp) s.id e) (.stays _))
  | resumed status s => exact .first (.turns _ _ _) (.stays _)
  | replaced status other e e' =>
    exact .first (.ends _ e) (.first (.turns _ _ _) (.first (.begins (by simp) _ e') (.stays _)))
  | lost s kept => exact .first (.turns _ _ _) (.stays _)
  | expired s e cause =>
    have ended :
        Leading (some s.id) [.session .closed s.id e, .status s.status .notConnected] none :=
      .first (.ends s.id e) (.first (.turns _ _ _) (.stays _))
    rcases cause with rfl | rfl <;> exact ended
  | closed stance alive id e => exact .first (.ends id e) (.first (.turns _ _ _) (.stays _))

theorem turns_eq (c : Connection) : c.turns = c.log.filter Event.isTurn :=
  List.filter_reverse.symm

theorem Reachable.leading_of_step {settings : Settings} {roster : Roster} {c c' : Connection}
    {a : Action} (h : Reachable settings roster c) (taken : c.step a = some c') {new : List Event}
    (log : c'.log = c.log ++ new) :
    Leading c.sessionId (published (new.filter Event.isTurn)) c'.sessionId := by
  obtain ⟨es, turns, next⟩ := (turn_of_step taken).leaps h.suits
  rw [turns_eq, turns_eq, log, List.filter_append] at turns
  rw [List.append_cancel_left turns]
  exact next.leading

theorem sessionId_of_quiet_step {settings : Settings} {roster : Roster} {c c' : Connection}
    {a : Action} (h : Reachable settings roster c) (taken : c.step a = some c') {new : List Event}
    (log : c'.log = c.log ++ new) (quiet : new.filter Event.isTurn = []) :
    c'.sessionId = c.sessionId := by
  have leads := h.leading_of_step taken log
  rw [quiet] at leads
  exact leads.eq_of_nil

/-- The session of the connection is the one that is on after all that was published. -/
theorem Reachable.leading {settings : Settings} {roster : Roster} {c : Connection}
    (h : Reachable settings roster c) : Leading none (published c.log) c.sessionId := by
  induction h with
  | start => exact .stays _
  | @step c c' a reached taken ih =>
    cases mail_of_step taken with
    | posts q =>
      obtain ⟨new, log, -, plain⟩ := q.posted
      rw [log, published_append]
      exact ih.append (.woven plain (reached.leading_of_step taken log))
    | @noticed d n _ _ driving listeners nextListener log dispatches =>
      have same := sessionId_of_quiet_step reached taken log rfl
      obtain ⟨-, id⟩ := suits_of_driving reached.suits driving
      rw [log, published_append, same]
      rw [id] at ih ⊢
      exact ih.append (.first (.notices d.session.id n) (.stays _))
    | delivered listeners nextListener log dispatches =>
      have same := sessionId_of_quiet_step reached taken log rfl
      rw [log, published_append, same]
      exact ih.append (.stays _)
    | listened topic => exact ih
    | unlistened id => exact ih

/-- The notifications that came, each with the session that was opened last before, if `on` was
before all of this. -/
def arrivalsFrom (on : Option SessionId) : List Event → List (Option SessionId × Notification)
  | [] => []
  | .opened s :: es => arrivalsFrom (some s.id) es
  | .received (.notification n) :: es => (on, n) :: arrivalsFrom on es
  | _ :: es => arrivalsFrom on es

def arrivals (es : List Event) : List (Option SessionId × Notification) := arrivalsFrom none es

def openedLast (on : Option SessionId) (es : List Event) : Option SessionId :=
  ((openings es).getLast?.map (·.id)).or on

theorem openedLast_opened (on : Option SessionId) (s : Session) (es : List Event) :
    openedLast on (.opened s :: es) = openedLast (some s.id) es := by
  have cons : openings (.opened s :: es) = s :: openings es := rfl
  rw [openedLast, cons, List.getLast?_cons, openedLast]
  cases (openings es).getLast? <;> rfl

theorem arrivalsFrom_append (on : Option SessionId) (es new : List Event) :
    arrivalsFrom on (es ++ new) = arrivalsFrom on es ++ arrivalsFrom (openedLast on es) new := by
  induction es generalizing on with
  | nil => rfl
  | cons e es ih =>
    cases e with
    | opened s =>
      rw [openedLast_opened]
      exact ih (some s.id)
    | received f =>
      cases f with
      | notification n => exact congrArg ((on, n) :: ·) (ih on)
      | _ => exact ih on
    | _ => exact ih on

theorem arrivalsFrom_of_plain {new : List Event} (plain : ∀ e ∈ new, e.isPlain = true)
    (on : Option SessionId) : arrivalsFrom on new = [] := by
  induction new generalizing on with
  | nil => rfl
  | cons e new ih =>
    have later (on) := ih (fun e he => plain e (List.mem_cons_of_mem _ he)) on
    have here := plain e List.mem_cons_self
    cases e with
    | received f =>
      cases f with
      | notification n => cases here
      | _ => exact later _
    | _ => exact later _

/-- The notifications that are told, each with the session that was begun last before, if `on` was
on before all of this. -/
def toldFrom (on : Option SessionId) : List Dispatch → List (Option SessionId × Notification)
  | [] => []
  | .session event id _ :: ds => toldFrom (if event = .closed then none else some id) ds
  | .notification n :: ds => (on, n) :: toldFrom on ds
  | _ :: ds => toldFrom on ds

theorem toldFrom_append {on mid : Option SessionId} {ds : List Dispatch} (h : Leading on ds mid)
    (es : List Dispatch) : toldFrom on (ds ++ es) = toldFrom on ds ++ toldFrom mid es := by
  induction h with
  | stays on => rfl
  | first one rest ih =>
    cases one with
    | begins opens id e =>
      rw [List.cons_append, toldFrom, toldFrom, if_neg opens]
      exact ih
    | notices id n => exact congrArg ((some id, n) :: ·) ih
    | ends | turns | completes => exact ih

theorem toldFrom_of_plain {new : List Event} (plain : ∀ e ∈ new, e.isPlain = true)
    (on : Option SessionId) : toldFrom on (published new) = [] := by
  induction new generalizing on with
  | nil => rfl
  | cons e new ih =>
    have later (on) := ih (fun e he => plain e (List.mem_cons_of_mem _ he)) on
    have here := plain e List.mem_cons_self
    cases e with
    | published d =>
      cases d with
      | notification n => cases here
      | _ => exact later _
    | _ => exact later _

theorem openings_turns (c : Connection) : openings c.turns = openings c.log := by
  have same (e : Event) : (if e.isTurn then e.opened? else none) = e.opened? := by
    split
    · rfl
    · cases e <;> first | rfl | contradiction
  rw [turns_eq, openings, openings, List.filterMap_filter]
  exact congrArg (List.filterMap · c.log) (funext same)

theorem Reachable.arrivals_eq {settings : Settings} {roster : Roster} {c : Connection}
    (h : Reachable settings roster c) : arrivals c.log = toldFrom none (published c.log) := by
  induction h with
  | start => rfl
  | @step c c' a reached taken ih =>
    have append {new : List Event} (log : c'.log = c.log ++ new) : arrivals c'.log =
        toldFrom none (published c.log) ++ arrivalsFrom (openedLast none c.log) new := by
      rw [log, arrivals, arrivalsFrom_append]
      exact congrArg (· ++ _) ih
    have tells := toldFrom_append reached.leading
    cases mail_of_step taken with
    | posts q =>
      obtain ⟨new, log, -, plain⟩ := q.posted
      rw [append log, arrivalsFrom_of_plain plain, log, published_append, tells,
        toldFrom_of_plain plain]
    | @noticed d n _ _ driving listeners nextListener log dispatches =>
      obtain ⟨-, id⟩ := suits_of_driving reached.suits driving
      have last : (openings c.turns).getLast? = some d.session :=
        reached.life.openings.1 d.session (by rw [phase, stance, driving]; rfl)
      have same : openedLast none c.log = c.sessionId := by
        rw [openedLast, ← openings_turns, last, id]
        rfl
      rw [append log, log, published_append, tells, same]
      rfl
    | delivered listeners nextListener log dispatches =>
      rw [append log, log, published_append, tells]
      rfl
    | listened topic => exact ih
    | unlistened id => exact ih

theorem Life.unopened {es : List Event} {p : Phase} (life : Life es p)
    (unopened : Connection.openings es = []) : told es = [] ∧ p.id = none := by
  induction life with
  | start => exact ⟨rfl, rfl⟩
  | @leap es new p p' life next ih =>
    rw [openings_append] at unopened
    obtain ⟨before, here⟩ := List.append_eq_nil_iff.mp unopened
    obtain ⟨none, id⟩ := ih before
    rw [told_append, none, List.nil_append]
    cases next with
    | stay p => exact ⟨rfl, id⟩
    | sought | attempted | withdrew => exact ⟨rfl, id⟩
    | rejected | gaveUp => exact ⟨told_moved _ _, id⟩
    | shut => exact ⟨told_moved _ _, rfl⟩
    | created | reopened | resumed | replaced => cases here
    | lost | expired | closed => cases id

theorem announced_published (c : Connection) : announced (published c.log) = told c.turns := by
  have same (e : Event) : (e.published?.bind Dispatch.session?) =
      if e.isTurn then e.session? else none := by
    cases e with
    | published d => cases d <;> rfl
    | received f => cases f <;> rfl
    | _ => rfl
  rw [turns_eq, told, List.filterMap_filter, announced, published, List.filterMap_filterMap]
  exact congrArg (List.filterMap · c.log) (funext same)

theorem Leading.not_notification {ds : List Dispatch} {on : Option SessionId}
    (h : Leading none ds on) (unannounced : announced ds = []) {d : Dispatch} (hd : d ∈ ds) :
    d.topic? ≠ some .session ∧ d.topic? ≠ some .notification := by
  induction ds with
  | nil => cases hd
  | cons d' ds ih =>
    cases h with
    | first one rest =>
      cases one with
      | begins => cases unannounced
      | turns | completes =>
        rcases List.mem_cons.mp hd with rfl | later
        · simp [Dispatch.topic?]
        · exact ih rest unannounced later

end Connection
end ServiceDirectory
