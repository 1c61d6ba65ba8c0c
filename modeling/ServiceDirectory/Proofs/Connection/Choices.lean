import ServiceDirectory.Proofs.Connection.Attempts

/-! The choice of an endpoint. The endpoints of the roster are counted, and as many are drawn one
after the other, until one has not turned down the credentials. In between others may act, and may
replace the roster. If nobody does, the draws follow the round of the roster and leave nobody out. A
roster that is replaced begins again with its first endpoint: one endpoint can be drawn twice then,
and another one not at all. -/
namespace ServiceDirectory.Connection

def Action.replaces : Action → Bool
  | .updateRoster endpoints => !endpoints.isEmpty
  | _ => false

/-- What a choice that began on the connection `c` can come to, with whether the roster was replaced
since, and with the endpoints that were drawn in vain, the latest first. -/
inductive Choice (c : Connection) : Bool → List Endpoint → Connection → Prop where
  | counts {s b} (seeking : c.carrier = .seeking s) (choosing : s.phase = .choosing)
    (taken : c.step .seek = some b) : Choice c false [] b
  | draws {replaced drawn b b'} (before : Choice c replaced drawn b)
    (left : drawn.length < c.roster.size) (refused : b.roster.peek ∈ b.rejected)
    (taken : b.step .seek = some b') : Choice c replaced (b.roster.peek :: drawn) b'
  | aside {replaced drawn a b b'} (before : Choice c replaced drawn b)
    (other : a.isSearch = false) (taken : b.step a = some b') :
    Choice c (replaced || a.replaces) drawn b'

def admits (c : Connection) (e : Endpoint) : Bool := !c.rejected.contains e

theorem admits_eq_true {c : Connection} {e : Endpoint} : c.admits e = true ↔ e ∉ c.rejected := by
  simp [admits]

theorem admits_eq_false {c : Connection} {e : Endpoint} : c.admits e = false ↔ e ∈ c.rejected := by
  simp [admits]

theorem find?_admits_eq_none {c : Connection} :
    c.roster.round.find? c.admits = none ↔ ∀ e ∈ c.roster.endpoints, e ∈ c.rejected := by
  simp only [List.find?_eq_none, Roster.mem_round, Bool.not_eq_true, admits_eq_false]

/-- Where a choice stands that was made in the search `s`. -/
structure Choosing (c : Connection) (s : Search) (drawn : List Endpoint) (b : Connection) :
    Prop where
  seeking : b.carrier = .seeking { s with phase := .drawing (c.roster.size - drawn.length) }
  few : drawn.length ≤ c.roster.size
  rejected : b.rejected = c.rejected
  attempts : b.attempts = c.attempts
  refused : ∀ e ∈ drawn, e ∈ c.rejected

variable {c b b' : Connection} {s : Search} {drawn : List Endpoint} {replaced : Bool}

namespace Choosing

theorem counts (seeking : c.carrier = .seeking s) (choosing : s.phase = .choosing)
    (taken : c.step .seek = some b) : Choosing c s [] b ∧ b.roster = c.roster := by
  rw [step_seek_of_choosing seeking choosing] at taken
  obtain rfl := Option.some.inj taken
  exact ⟨⟨rfl, Nat.zero_le _, rfl, rfl, List.forall_mem_nil _⟩, rfl⟩

theorem apart (h : Choosing c s drawn b) (q : Apart b b') : Choosing c s drawn b' where
  seeking := pursuit_eq_seeking.mp (q.pursuit.trans (pursuit_eq_seeking.mpr h.seeking))
  few := h.few
  rejected := q.rejected.trans h.rejected
  attempts := q.attempts.trans h.attempts
  refused := h.refused

theorem aside (h : Choosing c s drawn b) {a : Action} (other : a.isSearch = false)
    (taken : b.step a = some b') : Choosing c s drawn b' ∧ b'.roster.avoid = b.roster.avoid ∧
      (a.replaces = false → b'.roster = b.roster) := by
  cases stride_of_step taken with
  | apart other q => exact ⟨h.apart q, congrArg Roster.avoid q.roster, fun _ => q.roster⟩
  | @replaced endpoints roster update =>
    refine ⟨⟨h.seeking, h.few, h.rejected, h.attempts, h.refused⟩, Roster.avoid_update update,
      fun vain => ?_⟩
    cases endpoints with
    | nil => cases update
    | cons => cases vain
  | asked cause q =>
    have asked : Choosing c s drawn { b with shutdown := true } :=
      ⟨h.seeking, h.few, h.rejected, h.attempts, h.refused⟩
    exact ⟨asked.apart q, congrArg Roster.avoid q.roster, fun _ => q.roster⟩
  | sought idle timeout => cases h.seeking.symm.trans idle
  | lost _ driving q => cases h.seeking.symm.trans driving
  | ended _ away q => exact absurd h.seeking (away _)
  | stopped stops seeking asked whole =>
    -- Nothing waits between two draws, so a shutdown is not noticed there.
    obtain rfl := Carrier.seeking.inj (h.seeking.symm.trans seeking)
    cases whole
  | _ => cases other

section

variable (h : Choosing c s drawn b)
include h

theorem step_seek (left : drawn.length < c.roster.size) :
    b.step .seek = some (b.draw s (c.roster.size - (drawn.length + 1))) := by
  refine step_seek_of_drawing h.seeking (congrArg Search.Phase.drawing ?_)
  omega

theorem draws (left : drawn.length < c.roster.size) (refused : b.roster.peek ∈ b.rejected)
    (taken : b.step .seek = some b') :
    Choosing c s (b.roster.peek :: drawn) b' ∧ b'.roster = b.roster.advance := by
  rw [h.step_seek left, draw_of_refused _ _ refused] at taken
  obtain rfl := Option.some.inj taken
  refine ⟨⟨rfl, left, h.rejected, h.attempts, List.forall_mem_cons.mpr ⟨?_, h.refused⟩⟩, rfl⟩
  exact h.rejected ▸ refused

theorem begins (left : drawn.length < c.roster.size) (accepted : b.roster.peek ∉ b.rejected) :
    ∃ b', b.step .seek = some b' ∧ b'.attempts = b.roster.peek :: c.attempts ∧
      ∀ s, b'.carrier ≠ aftermath s := by
  refine ⟨_, h.step_seek left, ?_, fun s' rests => ?_⟩
  · rw [draw_of_accepted _ _ accepted]
    exact congrArg (b.roster.peek :: ·) h.attempts
  · rw [draw_of_accepted _ _ accepted] at rests
    exact aftermath_ne_seeking s' _ rests.symm

theorem ends (none : drawn.length = c.roster.size) :
    ∃ b', b.step .seek = some b' ∧ b'.attempts = c.attempts ∧ b'.carrier = aftermath s := by
  have empty : c.roster.size - drawn.length = 0 := by omega
  have seeking := h.seeking
  rw [empty] at seeking
  exact ⟨_, step_seek_of_none seeking rfl, (apart_searchFailed _ _ _).attempts.trans h.attempts,
    pursuit_eq_aftermath.mp (apart_searchFailed _ _ _).pursuit⟩

end

end Choosing

namespace Choice

/-- A choice is made in a search, and all that it has drawn have turned down the credentials. -/
theorem exists_search (h : Choice c replaced drawn b) :
    ∃ s, c.carrier = .seeking s ∧ s.phase = .choosing ∧ Choosing c s drawn b := by
  induction h with
  | counts seeking choosing taken =>
    exact ⟨_, seeking, choosing, (Choosing.counts seeking choosing taken).1⟩
  | draws before left refused taken ih =>
    obtain ⟨s, seeking, choosing, stands⟩ := ih
    exact ⟨s, seeking, choosing, (stands.draws left refused taken).1⟩
  | aside before other taken ih =>
    obtain ⟨s, seeking, choosing, stands⟩ := ih
    exact ⟨s, seeking, choosing, (stands.aside other taken).1⟩

theorem avoid (h : Choice c replaced drawn b) (first : drawn = []) :
    b.roster.avoid = c.roster.avoid := by
  induction h with
  | counts seeking choosing taken =>
    exact congrArg Roster.avoid (Choosing.counts seeking choosing taken).2
  | draws => cases first
  | aside before other taken ih =>
    obtain ⟨s, -, -, stands⟩ := before.exists_search
    exact (stands.aside other taken).2.1.trans (ih first)

theorem ne_nil_of_left {rest : List Endpoint} (whole : c.roster.round = drawn.reverse ++ rest)
    (left : drawn.length < c.roster.size) : rest ≠ [] := by
  rintro rfl
  rw [← c.roster.length_round, whole, List.append_nil, List.length_reverse] at left
  exact Nat.lt_irrefl _ left

theorem round (h : Choice c replaced drawn b) (kept : replaced = false) :
    b.roster.endpoints = c.roster.endpoints ∧
      ∃ rest, c.roster.round = drawn.reverse ++ rest ∧ b.roster.round = rest ++ drawn.reverse := by
  -- What has been drawn goes from the front of the round to its end.
  induction h with
  | counts seeking choosing taken =>
    have same := (Choosing.counts seeking choosing taken).2
    exact ⟨congrArg Roster.endpoints same, c.roster.round, rfl,
      same ▸ (List.append_nil _).symm⟩
  | @draws _ drawn b b' before left refused taken ih =>
    obtain ⟨listed, rest, whole, round⟩ := ih kept
    obtain ⟨s, -, -, stands⟩ := before.exists_search
    have next := (stands.draws left refused taken).2
    obtain ⟨rest', rfl, moved⟩ := Roster.exists_cons_of_round round (ne_nil_of_left whole left)
    rw [List.reverse_cons, next, moved]
    exact ⟨listed, rest', by simp [whole], rfl⟩
  | aside before other taken ih =>
    obtain ⟨kept, still⟩ := Bool.or_eq_false_iff.mp kept
    obtain ⟨s, -, -, stands⟩ := before.exists_search
    rw [(stands.aside other taken).2.2 still]
    exact ih kept

theorem peek_mem (h : Choice c replaced drawn b) (kept : replaced = false) :
    b.roster.peek ∈ c.roster.endpoints :=
  (h.round kept).1 ▸ List.get_mem _ _

theorem find?_eq_some (h : Choice c false drawn b) (left : drawn.length < c.roster.size)
    (accepted : b.roster.peek ∉ b.rejected) :
    c.roster.round.find? c.admits = some b.roster.peek := by
  obtain ⟨-, rest, whole, round⟩ := h.round rfl
  obtain ⟨s, -, -, stands⟩ := h.exists_search
  obtain ⟨rest', rfl, -⟩ := Roster.exists_cons_of_round round (ne_nil_of_left whole left)
  have passes : c.admits b.roster.peek = true := admits_eq_true.mpr (stands.rejected ▸ accepted)
  have vain : drawn.reverse.find? c.admits = none :=
    List.find?_eq_none.mpr fun e he => by
      simp [admits_eq_false.mpr (stands.refused e (List.mem_reverse.mp he))]
  rw [whole, List.find?_append, vain, List.find?_cons_of_pos passes]
  rfl

theorem find?_eq_none (h : Choice c false drawn b) (none : drawn.length = c.roster.size) :
    c.roster.round.find? c.admits = .none := by
  obtain ⟨-, rest, whole, -⟩ := h.round rfl
  obtain ⟨s, -, -, stands⟩ := h.exists_search
  have empty : rest = [] := by
    refine List.eq_nil_of_length_eq_zero ?_
    have length := congrArg List.length whole
    rw [c.roster.length_round, List.length_append, List.length_reverse] at length
    omega
  rw [whole, empty, List.append_nil]
  exact List.find?_eq_none.mpr fun e he => by
    simp [admits_eq_false.mpr (stands.refused e (List.mem_reverse.mp he))]

theorem find?_of_attempts (h : Choice c false drawn b) (taken : b.step .seek = some b')
    {e : Endpoint} (attempts : b'.attempts = e :: c.attempts) :
    c.roster.round.find? c.admits = some e := by
  obtain ⟨s, -, -, stands⟩ := h.exists_search
  have begins : b'.attempts ≠ c.attempts := fun same =>
    List.cons_ne_self e c.attempts (attempts.symm.trans same)
  by_cases none : drawn.length = c.roster.size
  · obtain ⟨_, ended, same, -⟩ := stands.ends none
    obtain rfl := Option.some.inj (taken.symm.trans ended)
    exact absurd same begins
  have left := Nat.lt_of_le_of_ne stands.few none
  by_cases refused : b.roster.peek ∈ b.rejected
  · exact absurd (stands.draws left refused taken).1.attempts begins
  · obtain ⟨_, begun, same, -⟩ := stands.begins left refused
    obtain rfl := Option.some.inj (taken.symm.trans begun)
    obtain rfl := (List.cons.inj (attempts.symm.trans same)).1
    exact h.find?_eq_some left refused

theorem exists_run (h : Choice c replaced drawn b) (stands : Choosing c s drawn b) :
    ∃ n drawn' b' c', Choice c replaced drawn' b' ∧ b.run (List.replicate n .seek) = some c' ∧
      (drawn'.length = c.roster.size ∧ c'.carrier = aftermath s ∨
        drawn'.length < c.roster.size ∧ b'.roster.peek ∉ b'.rejected ∧
          c'.attempts = b'.roster.peek :: c.attempts ∧ c'.carrier ≠ aftermath s) := by
  have last {c' : Connection} (taken : b.step .seek = some c') :
      b.run (List.replicate 1 .seek) = some c' := run_cons_eq_some_iff.mpr ⟨c', taken, rfl⟩
  -- The induction is on how many may still be drawn.
  generalize ahead : c.roster.size - drawn.length = k
  induction k generalizing drawn b with
  | zero =>
    have none : drawn.length = c.roster.size := Nat.le_antisymm stands.few (by omega)
    obtain ⟨c', taken, -, rests⟩ := stands.ends none
    exact ⟨1, drawn, b, c', h, last taken, .inl ⟨none, rests⟩⟩
  | succ k ih =>
    have left : drawn.length < c.roster.size := by omega
    by_cases refused : b.roster.peek ∈ b.rejected
    · have taken := stands.step_seek left
      obtain ⟨n, drawn', b', c', choice, run, ends⟩ := ih (.draws h left refused taken)
        (stands.draws left refused taken).1 (fun taken => run_cons_eq_some_iff.mpr ⟨_, taken, rfl⟩)
        (by rw [List.length_cons]; omega)
      exact ⟨n + 1, drawn', b', c', choice, run_cons_eq_some_iff.mpr ⟨_, taken, run⟩, ends⟩
    · obtain ⟨c', taken, attempts, away⟩ := stands.begins left refused
      exact ⟨1, drawn, b, c', h, last taken, .inr ⟨left, refused, attempts, away s⟩⟩

end Choice

/-- If nobody disturbs it, a choice tries the first of the round that may be tried, and is given up
if there is none. -/
theorem exists_run_of_choosing (seeking : c.carrier = .seeking s) (choosing : s.phase = .choosing) :
    ∃ n c', c.run (List.replicate n .seek) = some c' ∧
      match c.roster.round.find? c.admits with
      | some x => c'.attempts = x :: c.attempts ∧ c'.carrier ≠ aftermath s
      | none => c'.carrier = aftermath s := by
  have taken := step_seek_of_choosing seeking choosing
  obtain ⟨n, drawn, b, c', choice, run, ends⟩ := (Choice.counts seeking choosing taken).exists_run
    (Choosing.counts seeking choosing taken).1
  refine ⟨n + 1, c', run_cons_eq_some_iff.mpr ⟨_, taken, run⟩, ?_⟩
  rcases ends with ⟨none, rests⟩ | ⟨left, accepted, attempts, away⟩
  · rw [choice.find?_eq_none none]
    exact rests
  · rw [choice.find?_eq_some left accepted]
    exact ⟨attempts, away⟩

def Chooses (b : Connection) : Prop :=
  ∀ s left, b.carrier = .seeking s → s.phase = .drawing left →
    ∃ c replaced drawn, Choice c replaced drawn b ∧ left + drawn.length = c.roster.size

theorem Chooses.step {a : Action} (h : Chooses b) (taken : b.step a = some b') : Chooses b' := by
  intro s' left seeking' drawing'
  have aside (other : a.isSearch = false) (before : b.carrier = .seeking s') :
      ∃ c replaced drawn, Choice c replaced drawn b' ∧ left + drawn.length = c.roster.size := by
    obtain ⟨c, replaced, drawn, choice, count⟩ := h s' left before drawing'
    exact ⟨c, _, drawn, .aside choice other taken, count⟩
  have apart {b : Connection} (q : Apart b b') : b.carrier = .seeking s' :=
    pursuit_eq_seeking.mp (q.pursuit.symm.trans (pursuit_eq_seeking.mpr seeking'))
  cases stride_of_step taken with
  | apart other q => exact aside other (apart q)
  | replaced => exact aside rfl seeking'
  | asked cause q =>
    have before := apart (b := { b with shutdown := true }) q
    rcases cause with rfl | rfl
    · exact aside rfl before
    · exact aside rfl before
  | sought =>
    obtain rfl := Carrier.seeking.inj seeking'
    cases drawing'
  | lost other driving q =>
    obtain rfl := Carrier.seeking.inj (apart q)
    cases drawing'
  | ended other away q => cases apart q
  | begun seeking ready begins =>
    obtain rfl := Carrier.seeking.inj seeking'
    obtain ⟨-, ⟨-, rfl⟩ | ⟨-, stop, rfl⟩⟩ := Search.continues_of_begin begins
    · cases drawing'
    · cases drawing'
  | waited =>
    obtain rfl := Carrier.seeking.inj seeking'
    cases drawing'
  | counted seeking choosing =>
    obtain rfl := Carrier.seeking.inj seeking'
    obtain rfl := Search.Phase.drawing.inj drawing'
    exact ⟨b, false, [], .counts seeking choosing taken, rfl⟩
  | passedOver seeking drawing refused =>
    obtain rfl := Carrier.seeking.inj seeking'
    obtain rfl := Search.Phase.drawing.inj drawing'
    obtain ⟨c, replaced, drawn, choice, count⟩ := h _ _ seeking drawing
    refine ⟨c, replaced, _, .draws choice (by omega) refused taken, ?_⟩
    rw [List.length_cons]
    omega
  | chose =>
    obtain rfl := Carrier.seeking.inj seeking'
    cases drawing'
  | spent | deserted => exact absurd (apart (apart_searchFailed _ _ _)) (aftermath_ne_seeking _ s')
  | opened => cases apart (apart_openSession _ _ _)
  | failed | timedOut =>
    obtain rfl := Carrier.seeking.inj (apart (apart_attemptFailed _ _ _ _))
    cases drawing'
  | stopped => exact absurd (apart (apart_searchStopped _ _)) (aftermath_ne_seeking _ s')

theorem Reachable.chooses {settings : Settings} {roster : Roster} {c : Connection}
    (h : Reachable settings roster c) : Chooses c := by
  induction h with
  | start => exact fun s left seeking => by cases seeking
  | step a _ taken ih => exact ih.step taken

end ServiceDirectory.Connection
