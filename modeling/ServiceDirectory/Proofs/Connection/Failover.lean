import ServiceDirectory.Proofs.Connection.Attempts

/-! A search among servers that keep their manner: each of them accepts handshakes, turns down the
credentials or fails, and does so every time. If there is an attempt for every endpoint and nothing
else ends the search, then it ends on a server that accepts, should there be one that has not turned
down the credentials before; the round that it makes through the roster leaves nobody out. -/
namespace ServiceDirectory

/-- How a server receives a handshake. -/
inductive Reception where
  | accepts
  | rejects
  | fails
  deriving DecidableEq

def Failure.reception (f : Failure) : Reception := if f.isAuth then .rejects else .fails

def Reception.ofAnswer (e : Endpoint) (settings : Settings) (r : Except Failure ServerFrame) :
    Reception :=
  match r >>= Session.ofAnswer e settings with
  | .ok _ => .accepts
  | .error f => f.reception

theorem Reception.exists_answer (e : Endpoint) (settings : Settings) (m : Reception) :
    ∃ r, Reception.ofAnswer e settings r = m := by
  cases m with
  | accepts => exact ⟨.ok (.connected { sessionId := 1, sessionTimeoutMs := 0 }), rfl⟩
  | rejects => exact ⟨.ok (.authFailed ""), rfl⟩
  | fails => exact ⟨.error .connectionClosed, rfl⟩

namespace Search

def Phase.rank : Phase → Nat
  | .ready => 0
  | .pausing _ => 1
  | .choosing => 2
  | .drawing _ | .handshake _ _ => 3

def Phase.left : Phase → Nat
  | .drawing left => left
  | _ => 0

def Phase.counts : Phase → Nat
  | .drawing _ | .handshake _ _ => 1
  | _ => 0

def tries (s : Search) : Nat := s.attempt + if s.facing?.isSome then 1 else 0

/-- How far a search has come; each of its steps but a draw in vain takes it further. -/
def rank (s : Search) : Nat := 4 * s.attempt + s.phase.rank

def choices (s : Search) : Nat := s.attempt + s.phase.counts

variable {s : Search}

theorem tries_of_facing_none (h : s.facing? = none) : s.tries = s.attempt := by
  rw [tries, h]
  rfl

theorem tries_of_handshake {e : Endpoint} {stop : Nat} (shakes : s.phase = .handshake e stop) :
    s.tries = s.attempt + 1 := by
  rw [tries, facing?, shakes]
  rfl

theorem tries_le_choices (s : Search) : s.tries ≤ s.choices := by
  rw [tries, choices, facing?]
  cases s.phase <;> simp [Phase.counts]

theorem choices_le_of_rank_le {n : Nat} (h : s.rank ≤ 4 * n) : s.choices ≤ n := by
  rw [rank] at h
  rw [choices]
  cases phase : s.phase with
  | drawing | handshake =>
    simp only [phase, Phase.rank] at h
    simp only [Phase.counts]
    omega
  | _ =>
    simp only [Phase.counts]
    omega

/-- How many steps a search has taken that has counted so many endpoints in all: for every attempt
there are four at most, and one for every endpoint counted that may not still be drawn. -/
structure Pace (total n counted : Nat) (s : Search) : Prop where
  steps : n + s.phase.left ≤ s.rank + counted
  budget : s.rank ≤ 4 * total

namespace Pace

variable {total n counted : Nat}

theorem bound (h : Pace total n counted s) : n ≤ 4 * total + counted := by
  have steps := h.steps
  have budget := h.budget
  omega

section

variable (h : Pace total n counted s)
include h

theorem chooses (ready : s.phase = .ready) (left : s.attempt < total) :
    Pace total (n + 1) counted { s with phase := .choosing } := by
  obtain ⟨steps, -⟩ := h
  simp only [rank, ready, Phase.rank, Phase.left] at steps
  constructor <;> simp only [rank, Phase.rank, Phase.left] <;> omega

theorem pauses (ready : s.phase = .ready) (left : s.attempt < total) (stop : Nat) :
    Pace total (n + 1) counted { s with phase := .pausing stop } := by
  obtain ⟨steps, -⟩ := h
  simp only [rank, ready, Phase.rank, Phase.left] at steps
  constructor <;> simp only [rank, Phase.rank, Phase.left] <;> omega

theorem awakes {stop : Nat} (pausing : s.phase = .pausing stop) :
    Pace total (n + 1) counted { s with phase := .choosing } := by
  obtain ⟨steps, budget⟩ := h
  simp only [rank, pausing, Phase.rank, Phase.left] at steps budget
  constructor <;> simp only [rank, Phase.rank, Phase.left] <;> omega

theorem counts (choosing : s.phase = .choosing) (size : Nat) :
    Pace total (n + 1) (counted + size) { s with phase := .drawing size } := by
  obtain ⟨steps, budget⟩ := h
  simp only [rank, choosing, Phase.rank, Phase.left] at steps budget
  constructor <;> simp only [rank, Phase.rank, Phase.left] <;> omega

theorem draws {left : Nat} (drawing : s.phase = .drawing (left + 1)) :
    Pace total (n + 1) counted { s with phase := .drawing left } := by
  obtain ⟨steps, budget⟩ := h
  simp only [rank, drawing, Phase.rank, Phase.left] at steps budget
  constructor <;> simp only [rank, Phase.rank, Phase.left] <;> omega

theorem faces {left : Nat} (drawing : s.phase = .drawing (left + 1)) (e : Endpoint) (now : Nat) :
    Pace total (n + 1) counted (s.face e now) := by
  obtain ⟨steps, budget⟩ := h
  simp only [rank, drawing, Phase.rank, Phase.left] at steps budget
  constructor <;> simp only [rank, face, Phase.rank, Phase.left] <;> omega

theorem givesUp {e : Endpoint} {stop : Nat} (shakes : s.phase = .handshake e stop) (f : Failure) :
    Pace total (n + 1) counted (s.giveUp f) := by
  obtain ⟨steps, budget⟩ := h
  simp only [rank, shakes, Phase.rank, Phase.left] at steps budget
  constructor <;> simp only [rank, giveUp, Phase.rank, Phase.left] <;> omega

end

end Pace

end Search

namespace Connection

variable {manner : Endpoint → Reception}

/-- Whether an action leaves the search alone that a connection is in: all servers keep their
manner, the roster stays, and nobody closes the connection. -/
def Undisturbed (manner : Endpoint → Reception) (c : Connection) : Action → Prop
  | .updateRoster _ | .callClose | .drop => False
  | .answer r => ∀ s, c.carrier = .seeking s →
    ∀ e ∈ s.facing?, Reception.ofAnswer e c.settings r = manner e
  | .timeOut => ∀ s, c.carrier = .seeking s → ∀ e ∈ s.facing?, manner e = .fails
  | _ => True

/-- What an undisturbed search can come to in so many steps of its own. -/
inductive Searching (manner : Endpoint → Reception) (c : Connection) : Nat → Connection → Prop where
  | start : Searching manner c 0 c
  | aside {n a b b'} (before : Searching manner c n b) (keeps : Undisturbed manner b a)
    (other : a.isSearch = false) (taken : b.step a = some b') : Searching manner c n b'
  | further {n a b b' s} (before : Searching manner c n b) (keeps : Undisturbed manner b a)
    (own : a.isSearch = true) (taken : b.step a = some b') (seeking : b'.carrier = .seeking s) :
    Searching manner c (n + 1) b'

def Welcome (manner : Endpoint → Reception) (c : Connection) (e : Endpoint) : Prop :=
  manner e = .accepts ∧ e ∉ c.rejected

/-- How far a search has gone in the round of the roster: past as many endpoints as it has tried, at
least, with no welcoming one among them but the one whose answer is awaited. A choice may draw all
that come behind them. -/
structure Passed (manner : Endpoint → Reception) (c b : Connection) (s : Search)
    (gone rest : List Endpoint) : Prop where
  whole : c.roster.round = gone ++ rest
  round : b.roster.round = rest ++ gone
  few : s.tries ≤ gone.length
  unmet : ∀ e ∈ gone, Welcome manner c e → s.facing? = some e
  reach : ∀ left, s.phase = .drawing left → rest.length ≤ left

namespace Passed

variable {c b : Connection} {s : Search} {gone rest : List Endpoint}
  (h : Passed manner c b s gone rest)
include h

theorem length : gone.length + rest.length = c.roster.size := by
  rw [← c.roster.length_round, h.whole, List.length_append]

theorem mem_rest (waits : s.facing? = none) {e : Endpoint} (listed : e ∈ c.roster.endpoints)
    (welcome : Welcome manner c e) : e ∈ rest := by
  have member : e ∈ gone ++ rest := h.whole ▸ Roster.mem_round.mpr listed
  refine (List.mem_append.mp member).resolve_left fun past => ?_
  cases waits.symm.trans (h.unmet e past welcome)

theorem next (waits : s.facing? = none) (some : ∃ e ∈ c.roster.endpoints, Welcome manner c e) :
    ∃ rest', rest = b.roster.peek :: rest' ∧
      b.roster.advance.round = rest' ++ (gone ++ [b.roster.peek]) := by
  obtain ⟨e, listed, welcome⟩ := some
  exact Roster.exists_cons_of_round h.round
    (List.ne_nil_of_mem (h.mem_rest waits listed welcome))

end Passed

/-- Where a search stands that began on the connection `c`. -/
structure Sweep (manner : Endpoint → Reception) (c : Connection) (n : Nat) (b : Connection)
    (s : Search) : Prop where
  seeking : b.carrier = .seeking s
  settings : b.settings = c.settings
  endpoints : b.roster.endpoints = c.roster.endpoints
  awake : b.shutdown = false
  timeless : s.deadline = none
  kept : c.rejected ⊆ b.rejected
  refused : ∀ e ∈ b.rejected, e ∈ c.rejected ∨ manner e = .rejects
  facing : ∀ e ∈ s.facing?, e ∈ c.roster.endpoints ∧ e ∉ c.rejected
  tried : ∃ tried, b.attempts = tried ++ c.attempts ∧ tried.length = s.tries
  pace : s.Pace c.settings.retry.totalAttempts n (s.choices * c.roster.size)
  passed : (∃ e ∈ c.roster.endpoints, Welcome manner c e) →
    ∃ gone rest, Passed manner c b s gone rest

namespace Sweep

variable {c b b' : Connection} {n : Nat} {s : Search}

theorem start (seeking : c.carrier = .seeking s) (ready : s.phase = .ready)
    (first : s.attempt = 0) (timeless : s.deadline = none) (awake : c.shutdown = false) :
    Sweep manner c 0 c s := by
  have facing : s.facing? = none := by rw [Search.facing?, ready]
  have tries : s.tries = 0 := by rw [Search.tries, facing, first]; rfl
  refine ⟨seeking, rfl, rfl, awake, timeless, List.Subset.refl _, fun e he => .inl he, ?_,
    ⟨[], rfl, tries.symm⟩, ⟨?_, ?_⟩, fun _ => ⟨[], c.roster.round, rfl, ?_, ?_, ?_, ?_⟩⟩
  · rw [facing]
    exact fun e he => by cases he
  · rw [ready]
    exact Nat.zero_le _
  · rw [Search.rank, ready, first]
    exact Nat.zero_le _
  · exact (List.append_nil _).symm
  · rw [tries]
    exact Nat.zero_le _
  · exact fun e he => by cases he
  · exact fun left drawing => by cases ready.symm.trans drawing

theorem not_mem_rejected (h : Sweep manner c n b s) {e : Endpoint} (welcome : Welcome manner c e) :
    e ∉ b.rejected := by
  intro listed
  rcases h.refused e listed with before | rejects
  · exact welcome.2 before
  · cases welcome.1.symm.trans rejects

theorem size (h : Sweep manner c n b s) : b.roster.size = c.roster.size :=
  congrArg List.length h.endpoints

theorem apart (h : Sweep manner c n b s) (q : Apart b b') : Sweep manner c n b' s := by
  have seeking : b'.carrier = .seeking s :=
    pursuit_eq_seeking.mp (q.pursuit.trans (pursuit_eq_seeking.mpr h.seeking))
  refine ⟨seeking, q.settings.trans h.settings, ?_, q.shutdown.trans h.awake, h.timeless, ?_, ?_,
    h.facing, ?_, h.pace, fun some => ?_⟩
  · rw [q.roster]
    exact h.endpoints
  · rw [q.rejected]
    exact h.kept
  · rw [q.rejected]
    exact h.refused
  · rw [q.attempts]
    exact h.tried
  · obtain ⟨gone, rest, passed⟩ := h.passed some
    exact ⟨gone, rest, { passed with round := q.roster ▸ passed.round }⟩

theorem waits {phase : Search.Phase} (h : Sweep manner c n b s) (before : s.facing? = none)
    (after : { s with phase }.facing? = none)
    (pace : { s with phase }.Pace c.settings.retry.totalAttempts (n + 1)
      ({ s with phase }.choices * c.roster.size))
    (reach : ∀ left, phase = .drawing left → c.roster.size ≤ left) :
    Sweep manner c (n + 1) { b with carrier := .seeking { s with phase } } { s with phase } := by
  have tries : { s with phase }.tries = s.tries := by
    rw [Search.tries, Search.tries, before, after]
  refine ⟨rfl, h.settings, h.endpoints, h.awake, h.timeless, h.kept, h.refused, ?_, ?_, pace,
    fun some => ?_⟩
  · rw [after]
    exact fun e he => by cases he
  · rw [tries]
    exact h.tried
  · obtain ⟨gone, rest, passed⟩ := h.passed some
    refine ⟨gone, rest, passed.whole, passed.round, tries ▸ passed.few, fun e past welcome => ?_,
      fun left drawing => ?_⟩
    · exact after.trans (before.symm.trans (passed.unmet e past welcome))
    · have length := passed.length
      have reach := reach left drawing
      omega

theorem counts (h : Sweep manner c n b s) (choosing : s.phase = .choosing) :
    Sweep manner c (n + 1)
      { b with carrier := .seeking { s with phase := .drawing b.roster.size } }
      { s with phase := .drawing b.roster.size } := by
  refine h.waits (by rw [Search.facing?, choosing]) rfl ?_ fun left drawing => ?_
  · have pace := h.pace.counts choosing b.roster.size
    rw [Search.choices, choosing, h.size, ← Nat.succ_mul] at pace
    rw [h.size]
    exact pace
  · rw [← h.size, Search.Phase.drawing.inj drawing]

section

variable {left : Nat} (h : Sweep manner c n b s) (drawing : s.phase = .drawing (left + 1))
include h drawing

theorem draws (refused : b.roster.peek ∈ b.rejected) :
    Sweep manner c (n + 1)
      { b with
        roster := b.roster.advance
        carrier := .seeking { s with phase := .drawing left } }
      { s with phase := .drawing left } := by
  have waits : s.facing? = none := by rw [Search.facing?, drawing]
  have tries : { s with phase := .drawing left }.tries = s.tries := by
    rw [Search.tries, Search.tries, waits]
    rfl
  have choices : { s with phase := .drawing left }.choices = s.choices := by
    rw [Search.choices, Search.choices, drawing]
    rfl
  refine ⟨rfl, h.settings, h.endpoints, h.awake, h.timeless, h.kept, h.refused, ?_, ?_, ?_,
    fun some => ?_⟩
  · exact fun e he => by cases he
  · rw [tries]
    exact h.tried
  · rw [choices]
    exact h.pace.draws drawing
  · obtain ⟨gone, rest, passed⟩ := h.passed some
    obtain ⟨rest', rfl, round⟩ := passed.next waits some
    refine ⟨gone ++ [b.roster.peek], rest', ?_, round, ?_, fun e past welcome => ?_,
      fun left' same => ?_⟩
    · rw [passed.whole, List.append_assoc]
      rfl
    · rw [tries, List.length_append]
      exact Nat.le_add_right_of_le passed.few
    · rcases List.mem_append.mp past with past | here
      · cases waits.symm.trans (passed.unmet e past welcome)
      · -- Who is drawn in vain is on the list, where nobody welcoming is.
        rw [List.mem_singleton.mp here] at welcome
        exact absurd refused (h.not_mem_rejected welcome)
    · obtain rfl := Search.Phase.drawing.inj same
      exact Nat.le_of_succ_le_succ (passed.reach _ drawing)

theorem faces (accepted : b.roster.peek ∉ b.rejected) :
    Sweep manner c (n + 1)
      ({ b with
        roster := b.roster.advance
        carrier := .seeking (s.face b.roster.peek b.now)
        }.record (.attempted b.roster.peek s.offer))
      (s.face b.roster.peek b.now) := by
  obtain ⟨tried, attempts, length⟩ := h.tried
  have waits : s.facing? = none := by rw [Search.facing?, drawing]
  have tries : (s.face b.roster.peek b.now).tries = s.tries + 1 := by
    rw [Search.tries_of_facing_none waits]
    rfl
  have choices : (s.face b.roster.peek b.now).choices = s.choices := by
    rw [Search.choices, Search.choices, drawing]
    rfl
  refine ⟨rfl, h.settings, h.endpoints, h.awake, h.timeless, h.kept, h.refused, fun x hx => ?_,
    ⟨b.roster.peek :: tried, congrArg (b.roster.peek :: ·) attempts, ?_⟩, ?_, fun some => ?_⟩
  · obtain rfl : b.roster.peek = x := Option.some.inj hx
    exact ⟨h.endpoints ▸ List.get_mem _ _, fun before => accepted (h.kept before)⟩
  · rw [List.length_cons, length, tries]
  · rw [choices]
    exact h.pace.faces drawing _ _
  · obtain ⟨gone, rest, passed⟩ := h.passed some
    obtain ⟨rest', rfl, round⟩ := passed.next waits some
    refine ⟨gone ++ [b.roster.peek], rest', ?_, round, ?_, fun e past welcome => ?_,
      fun left' other => by cases other⟩
    · rw [passed.whole, List.append_assoc]
      rfl
    · rw [tries, List.length_append]
      exact Nat.add_le_add_right passed.few 1
    · rcases List.mem_append.mp past with past | here
      · cases waits.symm.trans (passed.unmet e past welcome)
      · exact congrArg Option.some (List.mem_singleton.mp here).symm

end

/-- A choice that draws all in vain has found nobody welcoming in the whole of the round. -/
theorem none_of_drawn (h : Sweep manner c n b s) (none : s.phase = .drawing 0) :
    ¬∃ e ∈ c.roster.endpoints, Welcome manner c e := by
  intro some
  obtain ⟨gone, rest, passed⟩ := h.passed some
  obtain ⟨e, listed, welcome⟩ := some
  have ahead := passed.mem_rest (by rw [Search.facing?, none]) listed welcome
  have empty := passed.reach 0 none
  exact absurd (List.length_pos_of_mem ahead) (Nat.not_lt_of_le empty)

theorem giveUp (h : Sweep manner c n b s) {e : Endpoint} {stop : Nat} {f : Failure}
    (shakes : s.phase = .handshake e stop) (same : f.reception = manner e) :
    Sweep manner c (n + 1) (b.attemptFailed s e f) (s.giveUp f) := by
  have facing : s.facing? = some e := by rw [Search.facing?, shakes]
  have tries : (s.giveUp f).tries = s.tries := (Search.tries_of_handshake shakes).symm
  have choices : (s.giveUp f).choices = s.choices := by
    rw [Search.choices, Search.choices, shakes]
    rfl
  have unwelcome : ¬Welcome manner c e := fun welcome => by
    have accepts := same.trans welcome.1
    unfold Failure.reception at accepts
    split at accepts <;> cases accepts
  refine Sweep.apart ?_ (b.apart_attemptFailed s e f)
  refine ⟨rfl, h.settings, h.endpoints, h.awake, h.timeless, ?_, ?_, ?_, ?_, ?_, fun some => ?_⟩
  · intro x hx
    change x ∈ if f.isAuth then e :: b.rejected else b.rejected
    split
    · exact List.mem_cons_of_mem e (h.kept hx)
    · exact h.kept hx
  · intro x hx
    change x ∈ if f.isAuth then e :: b.rejected else b.rejected at hx
    split at hx
    · rename_i auth
      rcases List.mem_cons.mp hx with rfl | hx
      · exact .inr (by rw [← same, Failure.reception, if_pos auth])
      · exact h.refused x hx
    · exact h.refused x hx
  · exact fun x hx => by cases hx
  · rw [tries]
    exact h.tried
  · rw [choices]
    exact h.pace.givesUp shakes f
  · obtain ⟨gone, rest, passed⟩ := h.passed some
    refine ⟨gone, rest, passed.whole, passed.round, tries ▸ passed.few, fun x past welcome => ?_,
      fun left other => by cases other⟩
    obtain rfl : e = x := Option.some.inj (facing.symm.trans (passed.unmet x past welcome))
    exact absurd welcome unwelcome

theorem aside (h : Sweep manner c n b s) {a : Action} (keeps : Undisturbed manner b a)
    (other : a.isSearch = false) (stride : Stride b a b') : Sweep manner c n b' s := by
  cases stride with
  | apart other q => exact h.apart q
  | replaced update => exact keeps.elim
  | asked cause q =>
    rcases cause with rfl | rfl
    · exact keeps.elim
    · exact keeps.elim
  | sought idle timeout => cases h.seeking.symm.trans idle
  | lost _ driving q => cases h.seeking.symm.trans driving
  | ended _ away q => exact absurd h.seeking (away s)
  | stopped stops seeking asked => cases h.awake.symm.trans asked
  | _ => cases other

theorem attempt_lt (h : Sweep manner c n b s) (waits : s.facing? = none)
    (some : ∃ e ∈ c.roster.endpoints, Welcome manner c e) : s.attempt < c.roster.size := by
  obtain ⟨gone, rest, passed⟩ := h.passed some
  obtain ⟨e, listed, welcome⟩ := some
  have positive := List.length_pos_of_mem (passed.mem_rest waits listed welcome)
  have length := passed.length
  have few := passed.few
  rw [Search.tries_of_facing_none waits] at few
  omega

theorem begins {s' : Search} (h : Sweep manner c n b s) (ready : s.phase = .ready)
    (begins : s.begin b.settings b.now b.shutdown = .continues s') :
    Sweep manner c (n + 1) { b with carrier := .seeking s' } s' := by
  have facing : s.facing? = none := by rw [Search.facing?, ready]
  have pace := h.pace
  rw [Search.choices, ready] at pace
  rw [h.settings] at begins
  obtain ⟨left, ⟨-, rfl⟩ | ⟨-, stop, rfl⟩⟩ := Search.continues_of_begin begins
  · exact h.waits facing rfl (pace.chooses ready left) fun left other => by cases other
  · exact h.waits facing rfl (pace.pauses ready left stop) fun left other => by cases other

theorem awakes {stop : Nat} (h : Sweep manner c n b s) (pausing : s.phase = .pausing stop) :
    Sweep manner c (n + 1) { b with carrier := .seeking { s with phase := .choosing } }
      { s with phase := .choosing } := by
  have pace := h.pace
  rw [Search.choices, pausing] at pace
  exact h.waits (by rw [Search.facing?, pausing]) rfl (pace.awakes pausing)
    fun left other => by cases other

/-- A step of the search takes it further, opens a session on a welcoming server, or ends it since
there is none. -/
theorem further (h : Sweep manner c n b s) {a : Action} (keeps : Undisturbed manner b a)
    (own : a.isSearch = true) (enough : c.roster.size ≤ c.settings.retry.totalAttempts)
    (stride : Stride b a b') :
    (∃ s', Sweep manner c (n + 1) b' s') ∨
    (∃ session, b' = b.openSession s session ∧ session.endpoint ∈ c.roster.endpoints ∧
      Welcome manner c session.endpoint) ∨
    (¬∃ e ∈ c.roster.endpoints, Welcome manner c e) ∧ ∃ f, b' = b.searchFailed s f := by
  have same {s' : Search} (seeking : b.carrier = .seeking s') : s = s' :=
    Carrier.seeking.inj (h.seeking.symm.trans seeking)
  cases stride with
  | apart other | lost other | ended other => cases own.symm.trans other
  | replaced update => exact keeps.elim
  | asked cause q => rcases cause with rfl | rfl <;> cases own
  | sought idle timeout => cases own
  | begun seeking ready begins =>
    obtain rfl := same seeking
    exact .inl ⟨_, h.begins ready begins⟩
  | spent seeking ready begins =>
    obtain rfl := same seeking
    refine .inr (.inr ⟨fun some => ?_, _, rfl⟩)
    have facing : s.facing? = none := by rw [Search.facing?, ready]
    rw [h.settings] at begins
    rcases Search.failed_of_begin begins with none | ⟨-, d, late, -⟩
    -- Somebody welcoming is still ahead in the round, so there is an attempt left.
    · exact absurd (Nat.le_trans enough none) (Nat.not_le_of_lt (h.attempt_lt facing some))
    · rw [h.timeless] at late
      cases late
  | waited seeking pausing past =>
    obtain rfl := same seeking
    exact .inl ⟨_, h.awakes pausing⟩
  | counted seeking choosing =>
    obtain rfl := same seeking
    exact .inl ⟨_, h.counts choosing⟩
  | passedOver seeking drawing refused =>
    obtain rfl := same seeking
    exact .inl ⟨_, h.draws drawing refused⟩
  | chose seeking drawing accepted =>
    obtain rfl := same seeking
    exact .inl ⟨_, h.faces drawing accepted⟩
  | deserted seeking none =>
    obtain rfl := same seeking
    exact .inr (.inr ⟨h.none_of_drawn none, _, rfl⟩)
  | @opened _ e _ _ session seeking shakes accepts =>
    obtain rfl := same seeking
    have facing : s.facing? = some e := by rw [Search.facing?, shakes]
    have endpoint : session.endpoint = e := Session.endpoint_ofAnswer accepts
    obtain ⟨listed, fresh⟩ := h.facing e facing
    have met := keeps s h.seeking e facing
    unfold Reception.ofAnswer at met
    rw [accepts] at met
    rw [← endpoint] at listed fresh met
    exact .inr (.inl ⟨session, rfl, listed, met.symm, fresh⟩)
  | failed seeking shakes fails =>
    obtain rfl := same seeking
    have met := keeps s h.seeking _ (by rw [Search.facing?, shakes]; rfl)
    unfold Reception.ofAnswer at met
    rw [fails] at met
    exact .inl ⟨_, h.giveUp shakes met⟩
  | timedOut seeking shakes past =>
    obtain rfl := same seeking
    have met := keeps s h.seeking _ (by rw [Search.facing?, shakes]; rfl)
    exact .inl ⟨_, h.giveUp shakes met.symm⟩
  | stopped stops seeking asked => cases h.awake.symm.trans asked

theorem of_searching (h : Sweep manner c 0 c s)
    (enough : c.roster.size ≤ c.settings.retry.totalAttempts)
    (searching : Searching manner c n b) : ∃ s, Sweep manner c n b s := by
  induction searching with
  | start => exact ⟨s, h⟩
  | aside before keeps other taken ih =>
    obtain ⟨s, sweep⟩ := ih
    exact ⟨s, sweep.aside keeps other (stride_of_step taken)⟩
  | @further n a b b' s' before keeps own taken seeking ih =>
    obtain ⟨s, sweep⟩ := ih
    rcases sweep.further keeps own enough (stride_of_step taken) with on | ⟨session, rfl, -⟩ |
      ⟨-, f, rfl⟩
    · exact on
    · obtain ⟨d, driving, -⟩ := pursuit_eq_driving.mp (b.apart_openSession s session).pursuit
      cases seeking.symm.trans driving
    · have rests := pursuit_eq_aftermath.mp (b.apart_searchFailed s f).pursuit
      exact absurd (rests.symm.trans seeking) (aftermath_ne_seeking s s')

/-- As time passes and servers answer, the search can always take another step. -/
theorem exists_step (h : Sweep manner c n b s) : ∃ time a b₁ b', b.step (.advance time) = some b₁ ∧
    Undisturbed manner b₁ a ∧ a.isSearch = true ∧ b₁.step a = some b' := by
  have seeks (time : Nat) (rests : s.facing? = none)
      (past : ∀ stop, s.phase = .pausing stop → stop ≤ b.now + time) :
      ∃ time a b₁ b', b.step (.advance time) = some b₁ ∧
        Undisturbed manner b₁ a ∧ a.isSearch = true ∧ b₁.step a = some b' := by
    obtain ⟨b', taken⟩ := exists_seek (c := { b with now := b.now + time }) h.seeking rests past
    exact ⟨time, .seek, _, b', rfl, trivial, rfl, taken⟩
  cases phase : s.phase with
  | ready | choosing | drawing =>
    refine seeks 0 (by rw [Search.facing?, phase]) fun stop pausing => ?_
    cases phase.symm.trans pausing
  | pausing stop =>
    refine seeks (stop - b.now) (by rw [Search.facing?, phase]) fun stop' pausing => ?_
    obtain rfl := Search.Phase.pausing.inj (phase.symm.trans pausing)
    omega
  | handshake e stop =>
    obtain ⟨r, same⟩ := Reception.exists_answer e b.settings (manner e)
    have taken : ∃ b', answer { b with now := b.now + 0 } r = some b' := by
      simp only [answer, h.seeking, phase]
      split
      · exact ⟨_, rfl⟩
      · exact ⟨_, rfl⟩
    obtain ⟨b', taken⟩ := taken
    refine ⟨0, .answer r, _, b', rfl, fun s' seeking x facing => ?_, rfl, taken⟩
    obtain rfl := Carrier.seeking.inj (h.seeking.symm.trans seeking)
    rw [Search.facing?, phase] at facing
    obtain rfl : e = x := Option.some.inj facing
    exact same

theorem bound (h : Sweep manner c n b s) :
    n ≤ c.settings.retry.totalAttempts * (c.roster.size + 4) := by
  have steps := h.pace.bound
  have counted := Nat.mul_le_mul_right c.roster.size (Search.choices_le_of_rank_le h.pace.budget)
  rw [Nat.mul_add]
  omega

end Sweep

/-- While all servers keep their manner, the roster stays and nobody closes the connection, a search
without a deadline that has an attempt for every endpoint ends within a bounded number of its steps;
the next of them can be taken once time has passed or the server has answered. If some endpoint of
the roster welcomes the connection, the search ends with a session on such a one, after no more
attempts than there are endpoints; otherwise it fails. -/
theorem search_settled {c : Connection} {s : Search} (seeking : c.carrier = .seeking s)
    (ready : s.phase = .ready) (first : s.attempt = 0) (timeless : s.deadline = none)
    (awake : c.shutdown = false) (enough : c.roster.size ≤ c.settings.retry.totalAttempts)
    {n : Nat} {b : Connection} (searching : Searching manner c n b) :
    n ≤ c.settings.retry.totalAttempts * (c.roster.size + 4) ∧
    (∃ time a b₁ b', b.step (.advance time) = some b₁ ∧ Undisturbed manner b₁ a ∧
      a.isSearch = true ∧ b₁.step a = some b') ∧
    ∃ s', b.carrier = .seeking s' ∧
      ∀ a b', Undisturbed manner b a → b.step a = some b' → (∀ s, b'.carrier ≠ .seeking s) →
        ((∃ e ∈ c.roster.endpoints, Welcome manner c e) →
          ∃ session, b' = b.openSession s' session ∧ session.endpoint ∈ c.roster.endpoints ∧
            Welcome manner c session.endpoint ∧
            ∃ tried, b'.attempts = tried ++ c.attempts ∧ tried.length ≤ c.roster.size) ∧
        ((¬∃ e ∈ c.roster.endpoints, Welcome manner c e) →
          ∃ f, b' = b.searchFailed s' f) := by
  have begun : Sweep manner c 0 c s := .start seeking ready first timeless awake
  obtain ⟨s', sweep⟩ := begun.of_searching enough searching
  refine ⟨sweep.bound, sweep.exists_step, s', sweep.seeking, ?_⟩
  intro a b' keeps taken away
  have stride := stride_of_step taken
  cases own : a.isSearch with
  | false => exact absurd (sweep.aside keeps own stride).seeking (away s')
  | true =>
    rcases sweep.further keeps own enough stride with ⟨s'', on⟩ | ⟨session, rfl, listed, welcome⟩ |
      ⟨unwelcome, failed⟩
    · exact absurd on.seeking (away s'')
    · refine ⟨fun some => ⟨session, rfl, listed, welcome, ?_⟩, fun none => ?_⟩
      · obtain ⟨tried, attempts, length⟩ := sweep.tried
        obtain ⟨gone, rest, passed⟩ := sweep.passed some
        refine ⟨tried, (b.apart_openSession s' session).attempts.trans attempts, ?_⟩
        have size := passed.length
        have few := passed.few
        omega
      · exact absurd ⟨_, listed, welcome⟩ none
    · exact ⟨fun some => absurd some unwelcome, fun _ => failed⟩

/-- A roster in which the marked endpoint comes twice. -/
theorem search_settled_twice : ∃ c b b' : Connection, c.rejected = [⟨"a", 1⟩] ∧
    c.roster.endpoints = [⟨"a", 1⟩, ⟨"b", 2⟩, ⟨"b", 2⟩] ∧ c.roster.avoid = some ⟨"b", 2⟩ ∧
    Searching (fun _ => .accepts) c 3 b ∧
    b.step (.answer (.ok (.connected { sessionId := 7, sessionTimeoutMs := 0 }))) = some b' ∧
    ∃ s session, b' = b.openSession s session ∧ session.endpoint = ⟨"b", 2⟩ := by
  obtain ⟨c, hc⟩ : ∃ c : Connection, c = { start {} {
      endpoints := [⟨"a", 1⟩, ⟨"b", 2⟩, ⟨"b", 2⟩], cursor := 1, avoid := some ⟨"b", 2⟩
      nonempty := by simp } with
    rejected := [⟨"a", 1⟩], carrier := .seeking (.resuming {} none) } := ⟨_, rfl⟩
  have outcome : (c.step .seek).bind (fun b₁ => (b₁.step .seek).bind fun b₂ =>
      (b₂.step .seek).bind fun b =>
        (b.step (.answer (.ok (.connected { sessionId := 7, sessionTimeoutMs := 0 })))).map
          fun b' => (b₁.pursuit, b₂.pursuit, b.pursuit, b'.pursuit)) = some
      (.seeking { Search.resuming {} none with phase := .choosing },
        .seeking { Search.resuming {} none with phase := .drawing 3 },
        .seeking { Search.resuming {} none with
          lastEndpoint := some ⟨"b", 2⟩
          phase := .handshake ⟨"b", 2⟩ (Time.ofMillis 5000) },
        .driving ⟨⟨"b", 2⟩, 7, Time.ofMillis 40000, false⟩) := by
    subst hc
    decide +kernel
  obtain ⟨b₁, first, outcome⟩ := Option.bind_eq_some_iff.mp outcome
  obtain ⟨b₂, second, outcome⟩ := Option.bind_eq_some_iff.mp outcome
  obtain ⟨b, third, outcome⟩ := Option.bind_eq_some_iff.mp outcome
  obtain ⟨b', taken, facts⟩ := Option.map_eq_some_iff.mp outcome
  simp only [Prod.mk.injEq] at facts
  obtain ⟨choosing, drawing, shakes, drives⟩ := facts
  have chooses : Searching (fun _ => .accepts) c 1 b₁ :=
    .further (a := .seek) .start trivial rfl first (pursuit_eq_seeking.mp choosing)
  have counts : Searching (fun _ => .accepts) c 2 b₂ :=
    .further (a := .seek) chooses trivial rfl second (pursuit_eq_seeking.mp drawing)
  have searching : Searching (fun _ => .accepts) c 3 b :=
    .further (a := .seek) counts trivial rfl third (pursuit_eq_seeking.mp shakes)
  obtain ⟨d, driving, -⟩ := pursuit_eq_driving.mp drives
  have start : c.carrier = .seeking (.resuming {} none) := by rw [hc]
  have awake : c.shutdown = false := by rw [hc]; rfl
  have enough : c.roster.size ≤ c.settings.retry.totalAttempts := by
    subst hc
    decide +kernel
  obtain ⟨-, -, s, -, ends⟩ := search_settled start rfl rfl rfl awake enough searching
  have keeps : Undisturbed (fun _ => .accepts) b
      (.answer (.ok (.connected { sessionId := 7, sessionTimeoutMs := 0 }))) :=
    fun s _ e _ => rfl
  obtain ⟨opens, -⟩ := ends _ b' keeps taken fun s seeking => by
    cases driving.symm.trans seeking
  have listed : c.roster.endpoints = [⟨"a", 1⟩, ⟨"b", 2⟩, ⟨"b", 2⟩] := by rw [hc]; rfl
  have rejected : c.rejected = [⟨"a", 1⟩] := by rw [hc]
  have welcome : Welcome (fun _ => .accepts) c ⟨"b", 2⟩ := ⟨rfl, by simp [rejected]⟩
  obtain ⟨session, opened, member, good, -⟩ := opens ⟨⟨"b", 2⟩, by simp [listed], welcome⟩
  have other : session.endpoint ≠ ⟨"a", 1⟩ := fun same => good.2 (by simp [same, rejected])
  have endpoint : session.endpoint = ⟨"b", 2⟩ := by simpa [listed, other] using member
  have marked : c.roster.avoid = some ⟨"b", 2⟩ := by rw [hc]; rfl
  exact ⟨c, b, b', rejected, listed, marked, searching, taken, s, session, opened, endpoint⟩

end Connection
end ServiceDirectory
