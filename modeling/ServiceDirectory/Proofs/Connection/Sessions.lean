import ServiceDirectory.Proofs.Connection.Protocol

/-! What the listeners of a connection are told about its sessions. The first session is created; a
later one is opened anew after the end of the one before, or it is the one before, taken up again,
and then nothing is told. A handshake offers the session that has not ended, if there is one. -/
namespace ServiceDirectory.Connection

def Event.session? : Event → Option (SessionEvent × SessionId)
  | .published (.session event id _) => some (event, id)
  | _ => none

def told (es : List Event) : List (SessionEvent × SessionId) := es.filterMap Event.session?

/-- The events after the opening of a session, when others followed; `ended` says whether the last
of them is over. -/
def reopenings (ended : Bool) : SessionId → List SessionId → List (SessionEvent × SessionId)
  | id, [] => if ended then [(.closed, id)] else []
  | id, next :: rest => (.closed, id) :: (.reopen, next) :: reopenings ended next rest

def lives (first : SessionId) (rest : List SessionId) (ended : Bool) :
    List (SessionEvent × SessionId) :=
  (.created, first) :: reopenings ended first rest

/-- The session that was created or reopened last, unless it ended since. -/
def current (events : List (SessionEvent × SessionId)) : Option SessionId :=
  match events.getLast? with
  | some (.created, id) | some (.reopen, id) => some id
  | _ => none

theorem reopenings_closed (id : SessionId) (rest : List SessionId) :
    reopenings false id rest ++ [(.closed, (id :: rest).getLast (by simp))] =
      reopenings true id rest := by
  induction rest generalizing id with
  | nil => rfl
  | cons next rest ih =>
    rw [reopenings, reopenings, List.getLast_cons (by simp), ← ih next]
    rfl

theorem reopenings_reopen (id next : SessionId) (rest : List SessionId) :
    reopenings true id rest ++ [(.reopen, next)] = reopenings false id (rest ++ [next]) := by
  induction rest generalizing id with
  | nil => rfl
  | cons other rest ih =>
    rw [List.cons_append, reopenings, reopenings, ← ih other]
    rfl

def Regular (events : List (SessionEvent × SessionId)) : Prop :=
  events = [] ∨ ∃ first rest ended, events = lives first rest ended

theorem current_append (events : List (SessionEvent × SessionId)) (event : SessionEvent)
    (id : SessionId) :
    current (events ++ [(event, id)]) = if event = .closed then none else some id := by
  rw [current, List.getLast?_concat]
  cases event <;> rfl

theorem current_lives (first : SessionId) (rest : List SessionId) (ended : Bool) :
    current (lives first rest ended) =
      if ended then none else some ((first :: rest).getLast (by simp)) := by
  cases ended with
  | true =>
    rw [lives, ← reopenings_closed, ← List.cons_append, current_append]
    rfl
  | false =>
    rcases List.eq_nil_or_concat rest with rfl | ⟨front, last, rfl⟩
    · rfl
    · rw [List.concat_eq_append, lives, ← reopenings_reopen, ← List.cons_append, current_append]
      exact congrArg some (List.getLast_concat (l := first :: front)).symm

namespace Regular

variable {events : List (SessionEvent × SessionId)} {id : SessionId}

theorem create (h : events = []) (id : SessionId) : Regular (events ++ [(.created, id)]) :=
  .inr ⟨id, [], false, by rw [h]; rfl⟩

theorem close (h : Regular events) (hc : current events = some id) :
    Regular (events ++ [(.closed, id)]) := by
  rcases h with rfl | ⟨first, rest, ended, rfl⟩
  · cases hc
  · rw [current_lives] at hc
    cases ended with
    | true => cases hc
    | false =>
      refine .inr ⟨first, rest, true, ?_⟩
      rw [lives, lives, ← reopenings_closed, ← Option.some.inj hc]
      rfl

theorem reopen (h : Regular events) (begun : events ≠ []) (hc : current events = none)
    (id : SessionId) : Regular (events ++ [(.reopen, id)]) := by
  rcases h with rfl | ⟨first, rest, ended, rfl⟩
  · exact absurd rfl begun
  · rw [current_lives] at hc
    cases ended with
    | true =>
      refine .inr ⟨first, rest ++ [id], false, ?_⟩
      rw [lives, lives, ← reopenings_reopen]
      rfl
    | false => cases hc

end Regular

theorem told_append (es new : List Event) : told (es ++ new) = told es ++ told new :=
  List.filterMap_append

theorem told_moved (previous next : ConnectionStatus) : told (moved previous next) = [] := by
  unfold moved
  split <;> rfl

/-- Whether a session has expired and none was opened since, if `b` says so before an event. -/
def Event.expires (b : Bool) : Event → Bool
  | .lost .sessionExpired => true
  | .received .sessionExpired => true
  | .opened _ => false
  | _ => b

def expiredSince (es : List Event) : Bool := es.foldl Event.expires false

theorem expiredSince_append (es new : List Event) :
    expiredSince (es ++ new) = new.foldl Event.expires (expiredSince es) :=
  List.foldl_append

theorem expires_moved (previous next : ConnectionStatus) (b : Bool) :
    (moved previous next).foldl Event.expires b = b := by
  unfold moved
  split <;> rfl

theorem expires_lost {f : Failure} (kept : f ≠ .sessionExpired) (b : Bool) :
    Event.expires b (.lost f) = b := by
  unfold Event.expires
  split
  · rename_i h
    exact absurd (Event.lost.inj h) kept
  · rename_i h
    cases h
  · rename_i h
    cases h
  · rfl

/-- What holds of the events so far, and of the phase that they lead to. -/
structure Chronicle (es : List Event) (p : Phase) : Prop where
  regular : Regular (told es)
  current : p.id = current (told es)
  fresh : p.stance = .free ∨ p.stance = .seeking false none → told es = []
  begun : (∃ offer, p.stance = .seeking true offer) ∨ (∃ s, p.stance = .driving s) → told es ≠ []
  expired : expiredSince es = true → p.id = none

namespace Chronicle

variable {es new : List Event} {p p' : Phase}

theorem silent (h : Chronicle es p) (ht : told new = [])
    (hx : new.foldl Event.expires (expiredSince es) = true → p.id = none) (hid : p'.id = p.id)
    (fresh : p'.stance = .free ∨ p'.stance = .seeking false none → told es = [])
    (begun : (∃ offer, p'.stance = .seeking true offer) ∨ (∃ s, p'.stance = .driving s) →
      told es ≠ []) : Chronicle (es ++ new) p' := by
  have same : told (es ++ new) = told es := by rw [told_append, ht, List.append_nil]
  refine ⟨same ▸ h.regular, ?_, same ▸ fresh, same ▸ begun, ?_⟩
  · rw [hid, same]
    exact h.current
  · rw [expiredSince_append, hid]
    exact hx

theorem opened {s : Session} (event : SessionEvent) (regular : Regular (told (es ++ new)))
    (last : ∃ events, told (es ++ new) = events ++ [(event, s.id)]) (live : event ≠ .closed)
    (hx : expiredSince (es ++ new) = false) :
    Chronicle (es ++ new) ⟨.driving s, s.status, some s.id⟩ := by
  obtain ⟨events, last⟩ := last
  refine ⟨regular, ?_, by simp, fun _ => by simp [last], by simp [hx]⟩
  rw [last, current_append, if_neg live]

theorem ended {id : SessionId} (h : Chronicle es p) (hid : p.id = some id)
    (ht : told new = [(.closed, id)]) (out : p'.id = none)
    (begun : p'.stance ≠ .free ∧ p'.stance ≠ .seeking false none) : Chronicle (es ++ new) p' := by
  have last : told (es ++ new) = told es ++ [(.closed, id)] := by rw [told_append, ht]
  refine ⟨?_, ?_, fun hf => ?_, fun _ => by simp [last], fun _ => out⟩
  · rw [last]
    exact h.regular.close (h.current ▸ hid)
  · rw [out, last, current_append]
    rfl
  · exact (hf.elim begun.1 begun.2).elim

theorem leap (h : Chronicle es p) (next : Leap p new p') : Chronicle (es ++ new) p' := by
  have neutral : expiredSince es = true → p.id = none := h.expired
  cases next with
  | stay p =>
    rw [List.append_nil]
    exact h
  | sought status => exact h.silent rfl neutral rfl (fun _ => h.fresh (.inl rfl)) (by simp)
  | attempted resumes offer status id e => exact h.silent rfl neutral rfl h.fresh h.begun
  | rejected resumes offer status id =>
    refine h.silent (told_moved _ _) ?_ rfl h.fresh h.begun
    rw [expires_moved]
    exact neutral
  | created status s e =>
    have none := h.fresh (.inr rfl)
    refine opened .created ?_ ⟨told es, told_append _ _⟩ (by simp) ?_
    · rw [told_append]
      exact .create none s.id
    · rw [expiredSince_append]
      rfl
  | reopened status s e =>
    have begun := h.begun (.inl ⟨_, rfl⟩)
    refine opened .reopen ?_ ⟨told es, told_append _ _⟩ (by simp) ?_
    · rw [told_append]
      exact h.regular.reopen begun h.current.symm s.id
    · rw [expiredSince_append]
      rfl
  | resumed status s =>
    have begun := h.begun (.inl ⟨_, rfl⟩)
    refine h.silent rfl (fun hx => ?_) rfl (by simp) fun _ => begun
    cases hx
  | @replaced status old s other e e' =>
    have begun := h.begun (.inl ⟨_, rfl⟩)
    have closed := h.regular.close h.current.symm
    have last : Connection.current (told es ++ [(.closed, old)]) = none := by
      rw [current_append]
      rfl
    have two : told (es ++ [.opened s, .published (.session .closed old e),
        .published (.status status s.status), .published (.session .reopen s.id e')]) =
        told es ++ [(.closed, old)] ++ [(.reopen, s.id)] := by
      rw [told_append, List.append_assoc]
      rfl
    refine opened .reopen ?_ ⟨_, two⟩ (by simp) ?_
    · rw [two]
      exact closed.reopen (by simp) last s.id
    · rw [expiredSince_append]
      rfl
  | lost s kept =>
    have begun := h.begun (.inr ⟨_, rfl⟩)
    refine h.silent rfl ?_ rfl (by simp) fun _ => begun
    rw [List.foldl_cons, expires_lost kept]
    exact neutral
  | expired s e cause =>
    refine h.ended rfl ?_ rfl (by simp)
    rcases cause with rfl | rfl <;> rfl
  | gaveUp status =>
    have fresh := h.fresh (.inr rfl)
    refine h.silent (told_moved _ _) ?_ rfl (fun _ => fresh) (by simp)
    rw [expires_moved]
    exact neutral
  | withdrew status =>
    have fresh := h.fresh (.inr rfl)
    exact h.silent rfl neutral rfl (fun _ => fresh) (by simp)
  | closed stance alive id e => exact h.ended rfl rfl rfl (by simp)
  | shut stance status =>
    refine h.silent (told_moved _ _) ?_ rfl (by simp) (by simp)
    rw [expires_moved]
    exact neutral

end Chronicle

theorem Life.chronicle {es : List Event} {p : Phase} (life : Life es p) : Chronicle es p := by
  induction life with
  | start => exact ⟨.inl rfl, rfl, fun _ => rfl, by simp, by simp [expiredSince]⟩
  | leap life next ih => exact ih.leap next

/-- Something that holds of every event together with the events before and after it. -/
def Throughout (P : List Event → Event → List Event → Prop) (es : List Event) : Prop :=
  ∀ before e after, es = before ++ e :: after → P before e after

theorem throughout_nil {P : List Event → Event → List Event → Prop} : Throughout P [] := by
  intro before e after h
  simp at h

theorem throughout_cons {P : List Event → Event → List Event → Prop} {e : Event}
    {es : List Event} :
    Throughout P (e :: es) ↔ P [] e es ∧ Throughout (fun before => P (e :: before)) es := by
  constructor
  · intro h
    exact ⟨h [] e es rfl, fun before e' after hs => h (e :: before) e' after (by rw [hs]; rfl)⟩
  · rintro ⟨first, rest⟩ before e' after hs
    cases before with
    | nil =>
      obtain ⟨rfl, rfl⟩ := List.cons.inj hs
      exact first
    | cons b before =>
      obtain ⟨rfl, tail⟩ := List.cons.inj hs
      exact rest before e' after tail

theorem Throughout.append {P : List Event → Event → List Event → Prop} {es new : List Event}
    (h : Throughout P es)
    (keeps : ∀ before e after, P before e after → P before e (after ++ new))
    (hn : Throughout (fun before => P (es ++ before)) new) : Throughout P (es ++ new) := by
  intro before e after hs
  rcases List.append_eq_append_iff.mp hs with ⟨middle, hb, hm⟩ | ⟨middle, hb, hm⟩
  · rw [hb]
    exact hn middle e after hm
  · cases middle with
    | nil =>
      rw [List.nil_append] at hm
      rw [List.append_nil] at hb
      rw [← hb]
      have first : P (es ++ []) e after := hn [] e after hm.symm
      rwa [List.append_nil] at first
    | cons b middle =>
      obtain ⟨rfl, rfl⟩ := List.cons.inj hm
      exact keeps _ _ _ (h before e middle hb)

/-- Before the opening of a session is told, the connection has become connected. -/
def Opening (before : List Event) : Prop :=
  ∃ earlier previous next, before = earlier ++ [.published (.status previous next)] ∧
    next.isConnected = true

/-- After the end of a session is told the connection is closed, or not connected any more since the
session expired, or it is connected by another session that takes the place of the old one. -/
def Ending (id : SessionId) (before after : List Event) : Prop :=
  ∃ previous next later, after = .published (.status previous next) :: later ∧
    (next = .closed ∨
    (next = .notConnected ∧ ∃ earlier, before = earlier ++ [.lost .sessionExpired]) ∨
    (next.isConnected = true ∧ ∃ earlier s e rest, before = earlier ++ [.opened s] ∧
      later = .published (.session .reopen s.id e) :: rest ∧ s.id ≠ id))

def Fitting (before : List Event) : Event → List Event → Prop
  | .attempted _ offer, _ =>
    offer = current (told before) ∧ (expiredSince before = true → offer = none)
  | .published (.session .closed id _), after => Ending id before after
  | .published (.session _ _ _), _ => Opening before
  | _, _ => True

theorem Fitting.append {before : List Event} {e : Event} {after : List Event}
    (h : Fitting before e after) (new : List Event) : Fitting before e (after ++ new) := by
  cases e with
  | attempted e offer => exact h
  | published d =>
    cases d with
    | session event id endpoint =>
      cases event with
      | created => exact h
      | closed =>
        obtain ⟨previous, next, later, rfl, cause⟩ := h
        refine ⟨previous, next, later ++ new, rfl, ?_⟩
        rcases cause with closed | lost | ⟨connected, earlier, s, e, rest, opened, rfl, other⟩
        · exact .inl closed
        · exact .inr (.inl lost)
        · exact .inr (.inr ⟨connected, earlier, s, e, rest ++ new, opened, rfl, other⟩)
      | reopen => exact h
    | _ => trivial
  | _ => trivial

theorem throughout_moved (es : List Event) (previous next : ConnectionStatus) :
    Throughout (fun before => Fitting (es ++ before)) (moved previous next) := by
  unfold moved
  split
  · exact throughout_nil
  · exact throughout_cons.mpr ⟨trivial, throughout_nil⟩

theorem fitting_leap {es new : List Event} {p p' : Phase} (h : Chronicle es p)
    (suits : p.stance.suits p.status p.id) (next : Leap p new p') :
    Throughout (fun before => Fitting (es ++ before)) new := by
  have opening (s : Session) (previous : ConnectionStatus) (front : List Event) :
      Opening (es ++ (front ++ [.published (.status previous s.status)])) :=
    ⟨es ++ front, previous, s.status, (List.append_assoc _ _ _).symm, s.isConnected_status⟩
  cases next with
  | stay p => exact throughout_nil
  | sought status => exact throughout_nil
  | attempted resumes offer status id e =>
    refine throughout_cons.mpr ⟨?_, throughout_nil⟩
    obtain ⟨-, same, -⟩ := suits
    obtain rfl : id = offer := same
    simp only [Fitting, List.append_nil]
    exact ⟨h.current, h.expired⟩
  | rejected resumes offer status id => exact throughout_moved es _ _
  | created status s e =>
    simp only [throughout_cons]
    exact ⟨trivial, trivial, opening s status [.opened s], throughout_nil⟩
  | reopened status s e =>
    simp only [throughout_cons]
    exact ⟨trivial, trivial, opening s status [.opened s], throughout_nil⟩
  | resumed status s =>
    simp only [throughout_cons]
    exact ⟨trivial, trivial, throughout_nil⟩
  | @replaced status old s other e e' =>
    simp only [throughout_cons]
    refine ⟨trivial, ?_, trivial, ?_, throughout_nil⟩
    · exact ⟨status, s.status, _, rfl, .inr (.inr ⟨s.isConnected_status, es, s, e', [], rfl, rfl,
        other.symm⟩)⟩
    · exact opening s status [.opened s, .published (.session .closed old e)]
  | lost s kept =>
    simp only [throughout_cons]
    exact ⟨trivial, trivial, throughout_nil⟩
  | expired s e cause =>
    have ends (front : List Event) : Ending s.id (es ++ (front ++ [.lost .sessionExpired]))
        [.published (.status s.status .notConnected)] :=
      ⟨s.status, .notConnected, [], rfl, .inr (.inl ⟨rfl, es ++ front,
        (List.append_assoc _ _ _).symm⟩)⟩
    rcases cause with rfl | rfl
    · simp only [List.nil_append, throughout_cons]
      exact ⟨trivial, ends [], trivial, throughout_nil⟩
    · simp only [List.cons_append, List.nil_append, throughout_cons]
      exact ⟨trivial, trivial, ends [.received .sessionExpired], trivial, throughout_nil⟩
  | gaveUp status => exact throughout_moved es _ _
  | withdrew status => exact throughout_nil
  | closed stance alive id e =>
    simp only [throughout_cons]
    exact ⟨⟨_, _, [], rfl, .inl rfl⟩, trivial, throughout_nil⟩
  | shut stance status => exact throughout_moved es _ _

theorem Life.fitting {es : List Event} {p : Phase} (life : Life es p) :
    Throughout Fitting es := by
  induction life with
  | start => exact throughout_nil
  | @leap es new p p' life next ih =>
    exact ih.append (fun _ _ _ h => h.append new) (fitting_leap life.chronicle life.suits next)

theorem foldl_expires {between : List Event} (none : ∀ e ∈ between, ∀ s, e ≠ .opened s) :
    between.foldl Event.expires true = true := by
  induction between with
  | nil => rfl
  | cons e between ih =>
    have here : Event.expires true e = true := by
      unfold Event.expires
      split
      · rfl
      · rfl
      · rename_i s
        exact absurd rfl (none _ List.mem_cons_self s)
      · rfl
    rw [List.foldl_cons, here]
    exact ih fun e' hm => none e' (List.mem_cons_of_mem e hm)

theorem expiredSince_of_between {before between : List Event} {expiry : Event}
    (expired : expiry = .lost .sessionExpired ∨ expiry = .received .sessionExpired)
    (none : ∀ e ∈ between, ∀ s, e ≠ .opened s) :
    expiredSince (before ++ expiry :: between) = true := by
  rw [expiredSince_append, List.foldl_cons]
  rcases expired with rfl | rfl
  · exact foldl_expires none
  · exact foldl_expires none

/-- The events of sessions that a connection publishes are those of a row of sessions. A handshake
offers the session that was told about last and has not ended, and none after an expiry. The opening
of a session is told after the status, and its end before. -/
theorem Reachable.sessions_told {settings : Settings} {roster : Roster} {c : Connection}
    (h : Reachable settings roster c) :
    (told c.turns = [] ∨ ∃ first rest ended, told c.turns = lives first rest ended) ∧
    (∀ before e offer after, c.turns = before ++ .attempted e offer :: after →
      offer = current (told before)) ∧
    (∀ before expiry between e offer after,
      c.turns = before ++ expiry :: between ++ .attempted e offer :: after →
      expiry = .lost .sessionExpired ∨ expiry = .received .sessionExpired →
      (∀ e ∈ between, ∀ s, e ≠ .opened s) → offer = none) ∧
    (∀ before event id e after, c.turns = before ++ .published (.session event id e) :: after →
      event ≠ .closed → Opening before) ∧
    (∀ before id e after, c.turns = before ++ .published (.session .closed id e) :: after →
      Ending id before after) := by
  have fitting := h.life.fitting
  refine ⟨h.life.chronicle.regular, ?_, ?_, ?_, ?_⟩
  · intro before e offer after split
    exact (fitting before _ after split).1
  · intro before expiry between e offer after split expired none
    exact (fitting _ _ after split).2 (expiredSince_of_between expired none)
  · intro before event id e after split live
    have opening := fitting before _ after split
    cases event with
    | created => exact opening
    | closed => exact absurd rfl live
    | reopen => exact opening
  · intro before id e after split
    exact fitting before _ after split

/-- A session that expires, the one after it, and the end of that by the caller. -/
theorem sessions_told_of_expiry : ∃ c : Connection, Reachable {}
    { endpoints := [⟨"localhost", 7000⟩], nonempty := by simp } c ∧
    told c.turns = lives 7 [8] true ∧ ∀ before expiry between e offer after,
      c.turns = before ++ expiry :: between ++ .attempted e offer :: after →
      expiry = .lost .sessionExpired ∨ expiry = .received .sessionExpired →
      (∀ e ∈ between, ∀ s, e ≠ .opened s) → offer = none := by
  have outcome : ((start {} { endpoints := [⟨"localhost", 7000⟩], nonempty := by simp }).run
      [.callConnect 1000, .enter, .seek, .seek, .seek,
        .answer (.ok (.connected { sessionId := 7, sessionTimeoutMs := 0 })),
        .receive (.ok .sessionExpired), .seek, .seek, .seek,
        .answer (.ok (.connected { sessionId := 8, sessionTimeoutMs := 0 })),
        .callClose, .hangUp true]).map (fun c => told c.turns) = some (lives 7 [8] true) := by
    decide +kernel
  obtain ⟨c, run, events⟩ := Option.map_eq_some_iff.mp outcome
  have reached := Reachable.start.run run
  obtain ⟨-, -, offers, -, -⟩ := reached.sessions_told
  exact ⟨c, reached, events, offers⟩

end ServiceDirectory.Connection
