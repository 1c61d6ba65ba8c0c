import ServiceDirectory.Proofs.Connection.Phases
import ServiceDirectory.Proofs.Connection.Strides

/-! The calls that wait for each other. A call comes to the end of the row and leaves it when its
turn is over. A call to connect has its turn as long as the carrier looks for a first session; a
call to close comes back in one step, which closes the connection. -/
namespace ServiceDirectory.Connection

theorem calls_returnFirst (c : Connection) (r : Except Failure Unit) :
    (c.returnFirst r).calls = c.calls.tail := by
  unfold returnFirst
  split
  · rename_i none
    rw [none]
    rfl
  · rename_i first
    rw [first]
    rfl

def SameCalls (c c' : Connection) : Prop := c'.calls = c.calls

theorem SameCalls.overlooksPackets : OverlooksPackets SameCalls where
  refl _ := rfl
  trans first second := second.trans first
  fields _ := rfl
  completes _ _ := rfl

theorem SameCalls.overlooksSessions : OverlooksSessions SameCalls where
  refl _ := rfl
  trans first second := second.trans first
  fields _ := rfl
  tells _ _ _ := rfl

theorem calls_closeOut (c : Connection) : c.closeOut.calls = c.calls := by
  obtain ⟨b, closed, same⟩ := SameCalls.overlooksSessions.closeOut SameCalls.overlooksPackets c
  rw [same]
  exact closed

theorem calls_sessionFailed (c : Connection) (f : Failure) :
    (c.sessionFailed f).calls = c.calls := by
  obtain ⟨b, offer, lost, same⟩ :=
    SameCalls.overlooksSessions.sessionFailed SameCalls.overlooksPackets c f
  rw [same]
  exact lost

theorem calls_attemptFailed (c : Connection) (s : Search) (e : Endpoint) (f : Failure) :
    (c.attemptFailed s e f).calls = c.calls :=
  SameCalls.overlooksSessions.attemptFailed c s e f

theorem calls_connectFailed (c : Connection) (f : Failure) :
    (c.connectFailed f).calls = c.calls.tail := by
  obtain ⟨b, failed, same⟩ :=
    SameCalls.overlooksSessions.connectFailed SameCalls.overlooksPackets c f
  rw [same, calls_returnFirst]
  exact congrArg List.tail failed

def callsAfter (c : Connection) (s : Search) : List (Ticket × Call) :=
  if s.resumes then c.calls else c.calls.tail

theorem calls_searchFailed (c : Connection) (s : Search) (f : Failure) :
    (c.searchFailed s f).calls = c.callsAfter s := by
  unfold searchFailed callsAfter
  split
  · exact c.calls_closeOut
  · exact c.calls_connectFailed f

theorem calls_searchStopped (c : Connection) (s : Search) :
    (c.searchStopped s).calls = c.callsAfter s := by
  unfold searchStopped callsAfter
  split
  · exact c.calls_closeOut
  · exact calls_returnFirst _ _

theorem carrier_searchFailed (c : Connection) (s : Search) (f : Failure) :
    (c.searchFailed s f).carrier = aftermath s :=
  pursuit_eq_aftermath.mp (c.apart_searchFailed s f).pursuit

theorem carrier_searchStopped (c : Connection) (s : Search) :
    (c.searchStopped s).carrier = aftermath s :=
  pursuit_eq_aftermath.mp (c.apart_searchStopped s).pursuit

theorem calls_openSession (c : Connection) (s : Search) (session : Session) :
    (c.openSession s session).calls = c.callsAfter s := by
  have started : (c.sessionStarted session s).calls = c.calls :=
    SameCalls.overlooksSessions.sessionStarted c session s
  unfold openSession callsAfter
  simp only
  split
  · exact started
  · exact (calls_returnFirst _ _).trans (congrArg List.tail started)

/-- What a step does to the row of calls. -/
inductive Shift (c : Connection) : Action → Connection → Prop where
  | kept {a c'} (other : a ≠ .enter) (same : c'.calls = c.calls) : Shift c a c'
  | called {a c'} (other : a ≠ .enter) (call : Call) (asks : call = .close → c'.shutdown = true)
    (more : c'.calls = c.calls ++ [(c.nextTicket, call)]) : Shift c a c'
  | entered {c'} (turn : c.enter = some c') : Shift c .enter c'
  | ended {a s c'} (other : a ≠ .enter) (seeking : c.carrier = .seeking s)
    (fewer : c'.calls = c.callsAfter s) (away : ∀ s', c'.carrier ≠ .seeking s') : Shift c a c'

theorem calls_handle (c : Connection) (d : Drive) (f : ServerFrame) :
    (c.handle d f).calls = c.calls := by
  cases f with
  | response r => exact SameCalls.overlooksPackets.respond c r
  | sessionExpired => exact c.calls_sessionFailed _
  | _ => rfl

theorem WriteStep.calls {c c' : Connection} {d : Drive} {id : PacketId} {p : Packet} {w : Writing}
    (m : WriteStep c d id p w c') : c'.calls = c.calls := by
  cases m with
  | tooLarge => exact SameCalls.overlooksPackets.complete _ _ _
  | broken => exact calls_sessionFailed _ _
  | _ => rfl

theorem SessionStep.calls {c c' : Connection} {d : Drive} {a : Action}
    (m : SessionStep c d a c') : c'.calls = c.calls := by
  cases m with
  | heard => exact calls_handle _ _ _
  | cut | expired | silent | unpinged => exact calls_sessionFailed _ _
  | pinged => rfl
  | hungUp => exact calls_closeOut _

theorem SendMove.calls {c c' : Connection} {t : Ticket} (m : SendMove c t c') :
    c'.calls = c.calls := by
  cases m <;> rfl

theorem DeliverStep.calls {c c' : Connection} (m : DeliverStep c c') : c'.calls = c.calls := by
  cases m with
  | ran => exact SameCalls.overlooksPackets.invoke _ _
  | told => rfl

theorem SearchStep.shift {c c' : Connection} {s : Search} {a : Action}
    (seeking : c.carrier = .seeking s) (m : SearchStep c s a c') : Shift c a c' := by
  cases m with
  | begun | waited | counted | passedOver | chose => exact .kept (by simp) rfl
  | spent | deserted =>
    exact .ended (by simp) seeking (calls_searchFailed _ _ _)
      (c.carrier_searchFailed s _ ▸ aftermath_ne_seeking s)
  | @opened e stop r session =>
    obtain ⟨d, driving, -⟩ := pursuit_eq_driving.mp (c.apart_openSession s session).pursuit
    exact .ended (by simp) seeking (calls_openSession _ _ _) (by simp [driving])
  | failed | timedOut => exact .kept (by simp) (calls_attemptFailed _ _ _ _)
  | stopped stops =>
    exact .ended (by rcases stops with rfl | rfl <;> simp) seeking (c.calls_searchStopped s)
      (c.carrier_searchStopped s ▸ aftermath_ne_seeking s)

/-- Every step keeps the row of calls, or shifts it in one of a few ways. -/
theorem shift_of_step {c c' : Connection} {a : Action} (h : c.step a = some c') :
    Shift c a c' := by
  cases stepped_of_step h with
  | passed | listened | unlistened | letGo => exact .kept (by simp) rfl
  | listed endpoints =>
    refine .kept (by simp) ?_
    rw [updateRoster]
    split <;> rfl
  | called timeout => exact .called (by simp) _ (by simp) rfl
  | asked => exact .called (by simp) _ (fun _ => rfl) rfl
  | sent actor m => exact .kept (by rintro rfl; cases actor) m.calls
  | call m =>
    cases m with
    | sought | turnedAway | closed => exact .entered h
    | left => exact .kept (by simp) rfl
    | gone => exact .kept (by simp) (calls_closeOut _)
  | searched seeking m => exact m.shift seeking
  | wrote driving takes packet m =>
    exact .kept (by simp) (m.calls.trans (SameCalls.overlooksPackets.takes takes))
  | used driving m => exact .kept (by rintro rfl; cases m) m.calls
  | delivered m => exact .kept (by simp) m.calls

theorem enter_cases {c c' : Connection} (h : c.enter = some c') :
    ∃ t call calls, c.calls = (t, call) :: calls ∧
      ((∃ timeout, call = .connect timeout ∧ c.carrier = .free ∧
        c' = { c with carrier := .seeking (.initial c.now timeout) }) ∨
      (∃ timeout r, call = .connect timeout ∧
        (c.status = .closed ∨ ∀ s, c.carrier = .seeking s → s.resumes = true) ∧
        c' = c.returnFirst r) ∨
      call = .close ∧ c' = c.closeOut.returnFirst (.ok ())) := by
  cases callStep_of_enter h with
  | sought row alive free => exact ⟨_, _, _, row, .inl ⟨_, rfl, free, rfl⟩⟩
  | turnedAway row late r => exact ⟨_, _, _, row, .inr (.inl ⟨_, r, rfl, late, rfl⟩)⟩
  | closed row idle => exact ⟨_, _, _, row, .inr (.inr ⟨rfl, rfl⟩)⟩

theorem Stride.shutdown {c c' : Connection} {a : Action} (stride : Stride c a c')
    (asked : c.shutdown = true) : c'.shutdown = true := by
  cases stride with
  | apart other q => exact q.shutdown.trans asked
  | asked cause q => exact q.shutdown
  | lost other driving q => exact q.shutdown.trans asked
  | ended other away q still => exact q.shutdown.trans (still asked)
  | replaced | sought | begun | waited | counted | passedOver | chose => exact asked
  | spent | deserted => exact (apart_searchFailed _ _ _).shutdown.trans asked
  | opened => exact (apart_openSession _ _ _).shutdown.trans asked
  | failed | timedOut => exact (apart_attemptFailed _ _ _ _).shutdown.trans asked
  | stopped => exact (apart_searchStopped _ _).shutdown.trans asked

/-- While a first search is under way, it is the turn of a call to connect. -/
def Served (c : Connection) : Prop :=
  ∀ s, c.carrier = .seeking s → s.resumes = false →
    ∃ t timeout calls, c.calls = (t, .connect timeout) :: calls

/-- Whoever calls to close has asked for the shutdown. -/
def Asked (c : Connection) : Prop := ∀ t, (t, Call.close) ∈ c.calls → c.shutdown = true

theorem Reachable.served {settings : Settings} {roster : Roster} {c : Connection}
    (h : Reachable settings roster c) : Served c := by
  induction h with
  | start => exact fun s seeking => by cases seeking
  | @step c c' a reached taken ih =>
    intro s' seeking first
    -- While the search is under way, its call stays where it is.
    have stays {s : Search} (before : c.carrier = .seeking s) (first : s.resumes = false) :
        ∃ t timeout calls, c'.calls = (t, .connect timeout) :: calls := by
      obtain ⟨t, timeout, calls, row⟩ := ih s before first
      cases shift_of_step taken with
      | kept other same => exact ⟨t, timeout, calls, same.trans row⟩
      | called other call asks more => exact ⟨t, timeout, _, by rw [more, row]; rfl⟩
      | ended other before fewer away => exact absurd seeking (away s')
      | entered turn =>
        obtain ⟨t, call, calls, row', ⟨-, -, idle, -⟩ | ⟨-, -, -, notFirst, -⟩ | ⟨rfl, -⟩⟩ :=
          enter_cases turn
        · cases idle.symm.trans before
        · rcases notFirst with closed | notFirst
          · cases (reached.finished_iff.mp closed).symm.trans before
          · exact absurd (notFirst s before) (by simp [first])
        · cases row.symm.trans row'
    cases (stride_of_step taken).emerges seeking with
    | kept before => exact stays before first
    | sought idle ready =>
      obtain ⟨t, call, calls, row, ⟨timeout, rfl, -, rfl⟩ | ⟨timeout, r, -, -, rfl⟩ | ⟨-, rfl⟩⟩ :=
        enter_cases (c := c) taken
      · exact ⟨t, timeout, calls, row⟩
      · have still := (c.apart_returnFirst r).pursuit.symm.trans (pursuit_eq_seeking.mpr seeking)
        cases idle.symm.trans (pursuit_eq_seeking.mp still)
      · have ends := (c.apart_closeOut.trans (apart_returnFirst _ (.ok ()))).pursuit
        cases ends.symm.trans (pursuit_eq_seeking.mpr seeking)
    | lost driving ready resumes => cases resumes.symm.trans first
    | wentOn before resumes attempt left => exact stays before (resumes.symm.trans first)
    | gaveUp before resumes ready => exact stays before (resumes.symm.trans first)

theorem Reachable.asked {settings : Settings} {roster : Roster} {c : Connection}
    (h : Reachable settings roster c) : Asked c := by
  induction h with
  | start => exact fun t waits => absurd waits (List.not_mem_nil)
  | @step c c' a reached taken ih =>
    intro t waits
    have old (before : (t, .close) ∈ c.calls) : c'.shutdown = true :=
      (stride_of_step taken).shutdown (ih t before)
    cases shift_of_step taken with
    | kept other same => exact old (same ▸ waits)
    | called other call asks more =>
      rcases List.mem_append.mp (more ▸ waits) with before | new
      · exact old before
      · exact asks (Prod.mk.inj (List.mem_singleton.mp new)).2.symm
    | ended other seeking fewer away =>
      rw [fewer, callsAfter] at waits
      split at waits
      · exact old waits
      · exact old (List.mem_of_mem_tail waits)
    | entered turn =>
      obtain ⟨_, _, _, _, ⟨_, _, _, rfl⟩ | ⟨_, r, _, _, rfl⟩ | ⟨_, rfl⟩⟩ := enter_cases turn
      · exact old waits
      · exact old (List.mem_of_mem_tail (c.calls_returnFirst r ▸ waits))
      · rw [calls_returnFirst, calls_closeOut] at waits
        exact old (List.mem_of_mem_tail waits)

theorem Reachable.closeOut_of_back {settings : Settings} {roster : Roster} {c c' : Connection}
    {a : Action} {t : Ticket} (h : Reachable settings roster c) (taken : c.step a = some c')
    (waits : (t, .close) ∈ c.calls) (back : (t, .close) ∉ c'.calls) :
    a = .enter ∧ (∃ calls, c.calls = (t, .close) :: calls) ∧
      c' = c.closeOut.returnFirst (.ok ()) := by
  -- Only the first call can be gone; that of a first search is not one to close.
  have gone {first : Ticket × Call} {calls : List (Ticket × Call)} (row : c.calls = first :: calls)
      (fewer : c'.calls = c.calls.tail) : first = (t, .close) := by
    rw [row] at waits fewer
    rcases List.mem_cons.mp waits with same | later
    · exact same.symm
    · exact absurd (fewer ▸ later) back
  cases shift_of_step taken with
  | kept other same => exact absurd (same ▸ waits) back
  | called other call asks more => exact absurd (more ▸ List.mem_append_left _ waits) back
  | ended other seeking fewer away =>
    unfold callsAfter at fewer
    split at fewer
    · exact absurd (fewer ▸ waits) back
    · rename_i first
      obtain ⟨_, _, _, row⟩ := h.served _ seeking (Bool.eq_false_iff.mpr first)
      cases gone row fewer
  | entered turn =>
    obtain ⟨t', call, calls, row, ⟨_, _, _, rfl⟩ | ⟨_, r, rfl, _, rfl⟩ | ⟨rfl, rfl⟩⟩ :=
      enter_cases turn
    · exact absurd waits back
    · cases gone row (c.calls_returnFirst r)
    · have fewer : (c.closeOut.returnFirst (.ok ())).calls = c.calls.tail :=
        (calls_returnFirst _ _).trans (congrArg List.tail c.calls_closeOut)
      obtain rfl := (Prod.mk.inj (gone row fewer)).1
      exact ⟨rfl, ⟨calls, row⟩, rfl⟩

/-- Whether an action is the connection's own, for which it waits for nobody. -/
def Action.isOwn : Action → Bool
  | .enter | .seek | .stop | .hangUp _ => true
  | _ => false

def Leads (c d : Connection) : Prop :=
  ∃ actions : List Action, (∀ a ∈ actions, a.isOwn = true) ∧ c.run actions = some d

namespace Leads

variable {b c d : Connection}

theorem refl (c : Connection) : Leads c c := ⟨[], List.forall_mem_nil _, rfl⟩

theorem head {a : Action} (own : a.isOwn = true) (taken : c.step a = some b) (h : Leads b d) :
    Leads c d := by
  obtain ⟨actions, owns, run⟩ := h
  exact ⟨a :: actions, List.forall_mem_cons.mpr ⟨own, owns⟩,
    run_cons_eq_some_iff.mpr ⟨b, taken, run⟩⟩

theorem trans (h : Leads c b) (k : Leads b d) : Leads c d := by
  obtain ⟨actions, owns, run⟩ := h
  induction actions generalizing c with
  | nil =>
    obtain rfl := run_nil_eq_some_iff.mp run
    exact k
  | cons a actions ih =>
    obtain ⟨c₁, taken, run⟩ := run_cons_eq_some_iff.mp run
    obtain ⟨own, owns⟩ := List.forall_mem_cons.mp owns
    exact head own taken (ih owns run)

theorem reachable {settings : Settings} {roster : Roster} (h : Leads c d)
    (reached : Reachable settings roster c) : Reachable settings roster d := by
  obtain ⟨actions, -, run⟩ := h
  exact reached.run run

end Leads

theorem step_stop {c : Connection} {s : Search} (seeking : c.carrier = .seeking s)
    (asked : c.shutdown = true)
    (waits : (∃ stop, s.phase = .pausing stop) ∨ ∃ e stop, s.phase = .handshake e stop) :
    c.step .stop = some (c.searchStopped s) := by
  have moves : c.step .stop = c.stop := rfl
  rw [moves, stop, seeking]
  rcases waits with ⟨_, pausing⟩ | ⟨_, _, shakes⟩
  · simp [asked, pausing]
  · simp [asked, shakes]

section

variable {c : Connection} {s : Search} (seeking : c.carrier = .seeking s)
  (asked : c.shutdown = true)
include asked

theorem leads_searchFailed {f : Failure} (taken : c.step .seek = some (c.searchFailed s f)) :
    ∃ d, Leads c d ∧ d.carrier = aftermath s ∧ d.calls = c.callsAfter s ∧ d.shutdown = true :=
  ⟨_, .head rfl taken (.refl _), carrier_searchFailed _ _ _, calls_searchFailed _ _ _,
    (apart_searchFailed _ _ _).shutdown.trans asked⟩

theorem leads_searchStopped {a : Action} (own : a.isOwn = true)
    (taken : c.step a = some (c.searchStopped s)) :
    ∃ d, Leads c d ∧ d.carrier = aftermath s ∧ d.calls = c.callsAfter s ∧ d.shutdown = true :=
  ⟨_, .head own taken (.refl _), carrier_searchStopped _ _, calls_searchStopped _ _,
    (apart_searchStopped _ _).shutdown.trans asked⟩

include seeking

theorem exists_leads_of_drawing {left : Nat} (drawing : s.phase = .drawing left) :
    ∃ d, Leads c d ∧ d.carrier = aftermath s ∧ d.calls = c.callsAfter s ∧ d.shutdown = true := by
  induction left generalizing c s with
  | zero => exact leads_searchFailed asked (step_seek_of_none seeking drawing)
  | succ left ih =>
    have taken := step_seek_of_drawing seeking drawing
    by_cases refused : c.roster.peek ∈ c.rejected
    · rw [draw_of_refused s left refused] at taken
      obtain ⟨d, leads, rests, calls, still⟩ := ih (c := { c with
        roster := c.roster.advance
        carrier := .seeking { s with phase := .drawing left } }) rfl asked rfl
      exact ⟨d, .head rfl taken leads, rests, calls, still⟩
    · -- The handshake that begins now is stopped like any other.
      rw [draw_of_accepted s left refused] at taken
      obtain ⟨d, leads, rests, calls, still⟩ := leads_searchStopped (c := { c with
        roster := c.roster.advance
        carrier := .seeking (s.face c.roster.peek c.now)
        }.record (.attempted c.roster.peek s.offer)) asked rfl
        (step_stop rfl asked (.inr ⟨c.roster.peek, _, rfl⟩))
      exact ⟨d, .head rfl taken leads, rests, calls, still⟩

theorem exists_leads_of_seeking :
    ∃ d, Leads c d ∧ d.carrier = aftermath s ∧ d.calls = c.callsAfter s ∧ d.shutdown = true := by
  cases phase : s.phase with
  | ready =>
    have taken : c.step .seek = some (c.proceed s (s.begin c.settings c.now c.shutdown)) := by
      rw [step_seek, seek, seeking]
      simp only [phase]
    cases begins : s.begin c.settings c.now c.shutdown with
    | continues s' => cases asked.symm.trans (Search.not_shutdown_of_begin begins)
    | failed f => exact leads_searchFailed asked (taken.trans (by rw [begins]; rfl))
    | stopped => exact leads_searchStopped asked rfl (taken.trans (by rw [begins]; rfl))
  | pausing stop =>
    exact leads_searchStopped asked rfl (step_stop seeking asked (.inl ⟨stop, phase⟩))
  | handshake e stop =>
    exact leads_searchStopped asked rfl (step_stop seeking asked (.inr ⟨e, stop, phase⟩))
  | drawing left => exact exists_leads_of_drawing seeking asked phase
  | choosing =>
    obtain ⟨d, leads, rests, calls, still⟩ := exists_leads_of_drawing (c := { c with
      carrier := .seeking { s with phase := .drawing c.roster.size } }) rfl asked rfl
    exact ⟨d, .head rfl (step_seek_of_choosing seeking phase) leads, rests, calls, still⟩

end

theorem exists_leads_of_call {settings : Settings} {roster : Roster} {c : Connection}
    {first : Ticket × Call} {calls : List (Ticket × Call)} (h : Reachable settings roster c)
    (asked : c.shutdown = true) (rests : c.carrier = .free ∨ c.carrier = .finished)
    (row : c.calls = first :: calls) :
    ∃ d, Leads c d ∧ d.calls = calls ∧ d.shutdown = true ∧
      (d.carrier = .free ∨ d.carrier = .finished) := by
  have moves : c.step .enter = c.enter := rfl
  obtain ⟨t, call⟩ := first
  cases call with
  | close =>
    have taken : c.step .enter = some (c.closeOut.returnFirst (.ok ())) := by
      rcases rests with idle | ended
      · simp only [moves, enter, row, idle]
      · simp only [moves, enter, row, ended]
    have apart := c.apart_closeOut.trans (apart_returnFirst _ (.ok ()))
    refine ⟨_, .head rfl taken (.refl _), ?_, apart.shutdown.trans asked, .inr ?_⟩
    · rw [calls_returnFirst, calls_closeOut, row]
      rfl
    · exact stance_eq_finished.mp (steady_returnFirst _ _).stance
  | connect timeout =>
    rcases rests with idle | ended
    · have alive : c.status ≠ .closed := fun closed => by
        cases (h.finished_iff.mp closed).symm.trans idle
      have taken : c.step .enter =
          some { c with carrier := .seeking (.initial c.now timeout) } := by
        simp only [moves, enter, row, idle, if_neg alive]
      obtain ⟨d, leads, back, fewer, asked⟩ := exists_leads_of_seeking
        (c := { c with carrier := .seeking (.initial c.now timeout) }) rfl asked
      refine ⟨d, .head rfl taken leads, ?_, asked, .inl back⟩
      rw [fewer]
      exact congrArg List.tail row
    · have taken : c.step .enter = some (c.returnFirst (.error .connectionClosed)) := by
        simp only [moves, enter, row, h.finished_iff.mpr ended, if_true]
      have apart := c.apart_returnFirst (.error .connectionClosed)
      refine ⟨_, .head rfl taken (.refl _), ?_, apart.shutdown.trans asked, .inr ?_⟩
      · rw [calls_returnFirst, row]
        rfl
      · refine stance_eq_finished.mp ((c.steady_returnFirst _).stance.trans ?_)
        exact stance_eq_finished.mpr ended

theorem exists_leads_of_rest {settings : Settings} {roster : Roster} {c : Connection}
    (h : Reachable settings roster c) (asked : c.shutdown = true)
    (rests : c.carrier = .free ∨ c.carrier = .finished) : ∃ d, Leads c d ∧ d.calls = [] := by
  induction row : c.calls generalizing c with
  | nil => exact ⟨c, .refl c, row⟩
  | cons first calls ih =>
    obtain ⟨b, leads, fewer, asked, rests⟩ := exists_leads_of_call h asked rests row
    obtain ⟨d, rest, none⟩ := ih (leads.reachable h) asked rests fewer
    exact ⟨d, leads.trans rest, none⟩

/-- When the shutdown is asked for and no request is half written, all calls come back without any
help from outside. -/
theorem Reachable.exists_leads {settings : Settings} {roster : Roster} {c : Connection}
    (h : Reachable settings roster c) (asked : c.shutdown = true)
    (idle : ∀ d, c.carrier = .driving d → d.writing = false) : ∃ d, Leads c d ∧ d.calls = [] := by
  cases carrier : c.carrier with
  | free => exact exists_leads_of_rest h asked (.inl carrier)
  | finished => exact exists_leads_of_rest h asked (.inr carrier)
  | seeking s =>
    obtain ⟨b, leads, back, -, asked⟩ := exists_leads_of_seeking carrier asked
    have rests : b.carrier = .free ∨ b.carrier = .finished := by
      rw [back, aftermath]
      split
      · exact .inr rfl
      · exact .inl rfl
    obtain ⟨d, rest, none⟩ := exists_leads_of_rest (leads.reachable h) asked rests
    exact ⟨d, leads.trans rest, none⟩
  | driving d =>
    have taken : c.step (.hangUp true) = some (c.record (.ended true)).closeOut := by
      have moves : c.step (.hangUp true) = c.hangUp true := rfl
      simp [moves, hangUp, carrier, asked, idle d carrier]
    have closed := (c.record (.ended true)).apart_closeOut
    obtain ⟨d, rest, none⟩ := exists_leads_of_rest (h.step _ taken) (closed.shutdown.trans asked)
      (.inr rfl)
    exact ⟨d, .head rfl taken rest, none⟩

end ServiceDirectory.Connection
