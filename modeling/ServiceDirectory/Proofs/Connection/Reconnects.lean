import ServiceDirectory.Proofs.Connection.Choices
import ServiceDirectory.Proofs.Roster.Avoidance

/-! What is tried first after the loss of a session. While a session lasts, and until an endpoint is
drawn after it, the roster has its endpoint marked to be passed over, and stands right behind it
unless it was replaced. So another endpoint is drawn first, and is tried first, except where a
replaced roster has the mark taken off at an endpoint that has turned down the credentials. -/
namespace ServiceDirectory

def Search.isAhead (s : Search) : Bool :=
  match s.phase with
  | .ready | .pausing _ | .choosing => true
  | _ => false

namespace Connection

def Event.server? : Event → Option Endpoint
  | .opened s => some s.endpoint
  | _ => none

def servers (c : Connection) : List Endpoint := c.history.filterMap Event.server?

theorem Apart.servers {c c' : Connection} (h : Apart c c') : c'.servers = c.servers :=
  h.view fun e other => by cases e <;> first | rfl | cases other

def Marked (c : Connection) : Prop :=
  ∃ e, c.servers.head? = some e ∧ c.roster.avoid = some e ∧ c.roster.Follows e

theorem Marked.congr {c c' : Connection} (h : Marked c) (servers : c'.servers = c.servers)
    (roster : c'.roster = c.roster) : Marked c' := by
  unfold Marked
  rw [servers, roster]
  exact h

/-- Whose turn it was last, in a handshake, on a session and at the beginning of the search after
it. -/
structure Heedful (c : Connection) : Prop where
  facing : ∀ s, c.pursuit = .seeking s → ∀ e ∈ s.facing?, c.roster.Follows e
  resuming : ∀ s, c.pursuit = .seeking s → s.resumes = true → s.attempt = 0 → s.isAhead = true →
    Marked c
  driving : ∀ s, c.pursuit = .driving s → Marked c

namespace Heedful

variable {c c' : Connection}

theorem apart (h : Heedful c) (q : Apart c c') : Heedful c' := by
  refine ⟨fun s seeking => ?_, fun s seeking resumes first ahead => ?_, fun s driving => ?_⟩
  · rw [q.roster]
    exact h.facing s (q.pursuit.symm.trans seeking)
  · have marked := h.resuming s (q.pursuit.symm.trans seeking) resumes first ahead
    exact marked.congr q.servers q.roster
  · exact (h.driving s (q.pursuit.symm.trans driving)).congr q.servers q.roster

theorem of_seeking {s : Search} (seeking : c.pursuit = .seeking s)
    (facing : ∀ e ∈ s.facing?, c.roster.Follows e)
    (resuming : s.resumes = true → s.attempt = 0 → s.isAhead = true → Marked c) : Heedful c := by
  have same {s' : Search} (other : c.pursuit = .seeking s') : s = s' :=
    Pursuit.seeking.inj (seeking.symm.trans other)
  refine ⟨fun s' other => ?_, fun s' other => ?_, fun s' driving => ?_⟩
  · exact same other ▸ facing
  · exact same other ▸ resuming
  · cases seeking.symm.trans driving

theorem of_rest (away : ∀ s, c.carrier ≠ .seeking s) (off : ∀ d, c.carrier ≠ .driving d) :
    Heedful c := by
  refine ⟨fun s seeking => ?_, fun s seeking => ?_, fun s driving => ?_⟩
  · exact absurd (pursuit_eq_seeking.mp seeking) (away s)
  · exact absurd (pursuit_eq_seeking.mp seeking) (away s)
  · obtain ⟨d, driving, -⟩ := pursuit_eq_driving.mp driving
    exact absurd driving (off d)

theorem of_aftermath {s : Search} (rests : c.carrier = aftermath s) : Heedful c :=
  of_rest (fun s' => rests ▸ aftermath_ne_seeking s s') fun d => rests ▸ aftermath_ne_driving s d

theorem waits {s : Search} {phase : Search.Phase} (h : Heedful c) (seeking : c.carrier = .seeking s)
    (ahead : s.isAhead = true) (after : { s with phase }.facing? = none) :
    Heedful { c with carrier := .seeking { s with phase } } := by
  refine of_seeking rfl (fun e he => ?_) fun resumes first _ => ?_
  · rw [after] at he
    cases he
  · exact (h.resuming s (pursuit_eq_seeking.mpr seeking) resumes first ahead).congr rfl rfl

theorem of_drawing {s : Search} {left : Nat}
    (drawing : c.carrier = .seeking { s with phase := .drawing left }) : Heedful c :=
  of_seeking (pursuit_eq_seeking.mpr drawing) (fun e he => by cases he)
    fun _ _ ahead => by cases ahead

theorem giveUp (c : Connection) (s : Search) (e : Endpoint) (f : Failure) :
    Heedful (c.attemptFailed s e f) := by
  refine apart ?_ (c.apart_attemptFailed s e f)
  exact of_seeking rfl (fun x hx => by cases hx) fun _ first _ => by cases first

end Heedful

theorem Stride.heedful {c c' : Connection} {a : Action} (stride : Stride c a c')
    (h : Heedful c) : Heedful c' := by
  cases stride with
  | apart other q => exact h.apart q
  | @replaced endpoints roster update =>
    refine ⟨fun s seeking e _ => Roster.follows_update update e, ?_, ?_⟩
    · intro s seeking resumes first ahead
      obtain ⟨e, last, marked, -⟩ := h.resuming s seeking resumes first ahead
      exact ⟨e, last, (Roster.avoid_update update).trans marked, Roster.follows_update update e⟩
    · intro s driving
      obtain ⟨e, last, marked, -⟩ := h.driving s driving
      exact ⟨e, last, (Roster.avoid_update update).trans marked, Roster.follows_update update e⟩
  | asked cause q =>
    have same : Heedful { c with shutdown := true } := ⟨h.facing, h.resuming, h.driving⟩
    exact same.apart q
  | sought idle timeout =>
    exact .of_seeking rfl (fun e he => by cases he) fun resumes => by cases resumes
  | @lost _ d offer _ other driving q =>
    have marked := h.driving d.session (pursuit_eq_driving.mpr ⟨d, driving, rfl⟩)
    refine Heedful.apart ?_ q
    exact .of_seeking rfl (fun e he => by cases he) fun _ _ _ => marked.congr rfl rfl
  | ended other away q =>
    exact Heedful.apart (.of_rest (fun s => by simp) fun d => by simp) q
  | @begun s _ seeking ready begins =>
    have ahead : s.isAhead = true := by rw [Search.isAhead, ready]
    obtain ⟨-, ⟨-, rfl⟩ | ⟨-, stop, rfl⟩⟩ := Search.continues_of_begin begins
    · exact h.waits seeking ahead rfl
    · exact h.waits seeking ahead rfl
  | waited seeking pausing past =>
    exact h.waits seeking (by rw [Search.isAhead, pausing]) rfl
  | counted | passedOver => exact .of_drawing rfl
  | chose seeking drawing accepted =>
    refine .of_seeking rfl (fun x hx => ?_) fun _ _ ahead => by cases ahead
    obtain rfl : c.roster.peek = x := Option.some.inj hx
    exact c.roster.follows_advance
  | spent | deserted =>
    exact .of_aftermath (pursuit_eq_aftermath.mp (apart_searchFailed _ _ _).pursuit)
  | @opened s e _ _ session seeking shakes accepts =>
    have facing : s.facing? = some e := by rw [Search.facing?, shakes]
    have follows := h.facing s (pursuit_eq_seeking.mpr seeking) e facing
    rw [← Session.endpoint_ofAnswer accepts] at follows
    refine Heedful.apart ?_ (c.apart_openSession s session)
    refine ⟨fun s seeking => ?_, fun s seeking => ?_, fun _ _ => ?_⟩
    · cases seeking
    · cases seeking
    · exact ⟨session.endpoint, rfl, rfl, follows⟩
  | failed seeking shakes fails => exact .giveUp _ _ _ _
  | timedOut seeking shakes past => exact .giveUp _ _ _ _
  | stopped stops seeking asked =>
    exact .of_aftermath (pursuit_eq_aftermath.mp (apart_searchStopped _ _).pursuit)

theorem Reachable.heedful {settings : Settings} {roster : Roster} {c : Connection}
    (h : Reachable settings roster c) : Heedful c := by
  induction h with
  | start => exact .of_rest (fun s seeking => by cases seeking) fun d driving => by cases driving
  | step a _ taken ih => exact (stride_of_step taken).heedful ih

/-- After the loss of a session on `e`, and while the roster is not replaced once the endpoints have
been counted, the first attempt is made on an endpoint of the roster that has not turned down the
credentials. Where there is another one than `e`, that is another one, but for one case: the roster
was replaced before, all endpoints that now come before `e` have turned down the credentials, and
there are such. However often the roster is replaced until then, the first that is drawn is not
`e`. -/
theorem Reachable.first_choice {settings : Settings} {roster : Roster} {c : Connection}
    (h : Reachable settings roster c) {s : Search} (seeking : c.carrier = .seeking s)
    (resumes : s.resumes = true) (first : s.attempt = 0) (choosing : s.phase = .choosing)
    {e : Endpoint} (last : c.servers.head? = some e) (distinct : c.roster.endpoints.Nodup)
    (other : ∃ y ∈ c.roster.endpoints, y ≠ e ∧ y ∉ c.refusals) :
    (∃ x ∈ c.roster.endpoints, x ∉ c.refusals ∧
      (∃ n c', c.run (List.replicate n .seek) = some c' ∧ c'.attempts = x :: c.attempts) ∧
      (∀ drawn b b' y, Choice c false drawn b → b.step .seek = some b' →
        b'.attempts = y :: c.attempts → y = x) ∧
      (x = e ↔ e ∉ c.refusals ∧ c.roster.cursor = 0 ∧
        ∃ front rest, c.roster.endpoints = front ++ e :: rest ∧ front ≠ [] ∧
          ∀ y ∈ front, y ∈ c.refusals)) ∧
    ∀ replaced b, Choice c replaced [] b → b.roster.endpoints.Nodup →
      (∃ y ∈ b.roster.endpoints, y ≠ e) → b.roster.peek ≠ e := by
  obtain ⟨e', last', marked, follows⟩ := h.heedful.resuming s (pursuit_eq_seeking.mpr seeking)
    resumes first (by rw [Search.isAhead, choosing])
  obtain rfl : e = e' := Option.some.inj (last.symm.trans last')
  refine ⟨?_, fun replaced b choice distinct other same => ?_⟩
  · simp only [← h.rejected, ← admits_eq_false, Bool.not_eq_false] at other ⊢
    obtain ⟨n, c', run, ends⟩ := exists_run_of_choosing seeking choosing
    cases found : c.roster.round.find? c.admits with
    | none =>
      obtain ⟨y, listed, -, admitted⟩ := other
      have refused := find?_admits_eq_none.mp found y listed
      cases admitted.symm.trans (admits_eq_false.mpr refused)
    | some x =>
      rw [found] at ends
      refine ⟨x, Roster.mem_round.mp (List.mem_of_find?_eq_some found), List.find?_some found,
        ⟨n, c', run, ends.1⟩, fun drawn b b' y choice taken attempts => ?_,
        Roster.find?_round_eq_marked_iff distinct other found marked follows⟩
      exact Option.some.inj ((choice.find?_of_attempts taken attempts).symm.trans found)
  · -- The mark lasts until the first draw, where a marked endpoint comes only if it is there twice.
    have marked := (choice.avoid rfl).trans marked
    obtain ⟨rest, twice⟩ := (Roster.peek_eq_marked_iff marked other).mp same
    have once : (e :: e :: rest).Nodup := twice ▸ List.nodup_rotate.mpr distinct
    exact (List.nodup_cons.mp once).1 List.mem_cons_self

/-- A roster that was replaced while the session lasted, with its endpoint first in the new one. -/
theorem first_choice_replaced : ∃ (c c' : Connection) (n : Nat), Reachable {}
    { endpoints := [⟨"a", 1⟩, ⟨"b", 2⟩], nonempty := by simp } c ∧
    c.servers.head? = some ⟨"a", 1⟩ ∧ c.roster.endpoints = [⟨"a", 1⟩, ⟨"c", 3⟩] ∧
    c.run (List.replicate n .seek) = some c' ∧ c'.attempts = ⟨"c", 3⟩ :: c.attempts := by
  have outcome : ((start {} { endpoints := [⟨"a", 1⟩, ⟨"b", 2⟩], nonempty := by simp }).run
      [.callConnect 1000, .enter, .seek, .seek, .seek,
        .answer (.ok (.connected { sessionId := 7, sessionTimeoutMs := 0 })),
        .updateRoster [⟨"a", 1⟩, ⟨"c", 3⟩],
        .receive (.error (Framing.failure "reading length prefix" Inlet.earlyEof)), .seek]).map
      (fun c => (c.pursuit, c.servers, c.roster.endpoints, c.refusals)) =
      some (.seeking { Search.resuming {} (some 7) with phase := .choosing }, [⟨"a", 1⟩],
        [⟨"a", 1⟩, ⟨"c", 3⟩], []) := by decide +kernel
  obtain ⟨c, run, facts⟩ := Option.map_eq_some_iff.mp outcome
  simp only [Prod.mk.injEq] at facts
  obtain ⟨seeking, servers, listed, none⟩ := facts
  have reached := Reachable.start.run run
  have last : c.servers.head? = some ⟨"a", 1⟩ := by rw [servers]; rfl
  have distinct : c.roster.endpoints.Nodup := by rw [listed]; decide
  have other : ∃ y ∈ c.roster.endpoints, y ≠ ⟨"a", 1⟩ ∧ y ∉ c.refusals :=
    ⟨⟨"c", 3⟩, by simp [listed], by decide, by simp [none]⟩
  obtain ⟨⟨x, member, -, ⟨n, c', tried, attempts⟩, -, same⟩, -⟩ := reached.first_choice
    (pursuit_eq_seeking.mp seeking) rfl rfl rfl last distinct other
  have differs : x ≠ ⟨"a", 1⟩ := fun hx => by
    obtain ⟨-, -, front, rest, split, notFirst, refused⟩ := same.mp hx
    obtain ⟨y, front, rfl⟩ := List.exists_cons_of_ne_nil notFirst
    have listed := refused y List.mem_cons_self
    rw [none] at listed
    cases listed
  rw [listed] at member
  obtain rfl : x = ⟨"c", 3⟩ := by simpa [differs] using member
  exact ⟨c, c', n, reached, last, listed, tried, attempts⟩

/-- The mark can be used up by an endpoint that has turned down the credentials: after the roster
was replaced by the same one, the server whose session was lost is tried first, though there is
another. -/
theorem exists_first_choice_same : ∃ (c c' : Connection) (s : Search),
    Reachable { retry := { maxRetries := 0 } }
      { endpoints := [⟨"b", 1⟩, ⟨"e", 2⟩, ⟨"c", 3⟩], nonempty := by simp } c ∧
    c.carrier = .seeking s ∧ s.resumes = true ∧ s.attempt = 0 ∧ s.phase = .choosing ∧
    c.servers.head? = some ⟨"e", 2⟩ ∧ c.roster.endpoints = [⟨"b", 1⟩, ⟨"e", 2⟩, ⟨"c", 3⟩] ∧
    c.refusals = [⟨"b", 1⟩] ∧ c.run [.seek, .seek, .seek] = some c' ∧
    c'.attempts = ⟨"e", 2⟩ :: c.attempts := by
  have outcome : ((start { retry := { maxRetries := 0 } }
      { endpoints := [⟨"b", 1⟩, ⟨"e", 2⟩, ⟨"c", 3⟩], nonempty := by simp }).run
      [.callConnect 1000, .enter, .seek, .seek, .seek, .answer (.ok (.authFailed "no")), .seek,
        .callConnect 1000, .enter, .seek, .seek, .seek,
        .answer (.ok (.connected { sessionId := 7, sessionTimeoutMs := 0 })),
        .updateRoster [⟨"b", 1⟩, ⟨"e", 2⟩, ⟨"c", 3⟩],
        .receive (.error (Framing.failure "reading length prefix" Inlet.earlyEof)),
        .seek]).bind (fun c => (c.run [.seek, .seek, .seek]).map fun c' =>
      (c.pursuit, c.servers, c.roster.endpoints, c.refusals,
        decide (c'.attempts = ⟨"e", 2⟩ :: c.attempts))) =
      some (.seeking { Search.resuming { retry := { maxRetries := 0 } } (some 7) with
          phase := .choosing },
        [⟨"e", 2⟩], [⟨"b", 1⟩, ⟨"e", 2⟩, ⟨"c", 3⟩], [⟨"b", 1⟩], true) := by decide +kernel
  obtain ⟨c, run, outcome⟩ := Option.bind_eq_some_iff.mp outcome
  obtain ⟨c', tried, facts⟩ := Option.map_eq_some_iff.mp outcome
  simp only [Prod.mk.injEq] at facts
  obtain ⟨seeking, servers, listed, refused, again⟩ := facts
  have last : c.servers.head? = some ⟨"e", 2⟩ := by rw [servers]; rfl
  exact ⟨c, c', _, Reachable.start.run run, pursuit_eq_seeking.mp seeking, rfl, rfl, rfl, last,
    listed, refused, tried, of_decide_eq_true again⟩

end Connection
end ServiceDirectory
