import ServiceDirectory.Proofs.Balancer.Rotation
import ServiceDirectory.Proofs.Cache.Runs

/-! Votes among the candidates that are up. Such a vote is a vote of the round robin on the list
without those that are down, so what holds of all its votes holds here of the shortened lists:
instances that are down can come, go and move between votes, and the others are picked in turn all
the same. A cache hands out such lists already, so for its lookups the two ways to vote are one. -/
namespace ServiceDirectory.RoundRobin

theorem voteHealthy_eq (b : RoundRobin) (service : String) (candidates : List ServiceInstance) :
    b.voteHealthy service candidates = b.vote service (candidates.filter (·.isUp)) := by
  unfold voteHealthy
  cases candidates.filter (·.isUp) <;> rfl

theorem filter_isUp_eq_nil_iff {candidates : List ServiceInstance} :
    candidates.filter (·.isUp) = [] ↔ ∀ i ∈ candidates, i.isUp = false := by
  simp only [List.filter_eq_nil_iff, Bool.not_eq_true]

theorem voteHealthy_of_all_down (b : RoundRobin) (service : String)
    {candidates : List ServiceInstance} (down : ∀ i ∈ candidates, i.isUp = false) :
    b.voteHealthy service candidates = (.error (.emptyCandidates service), b) := by
  rw [voteHealthy_eq, filter_isUp_eq_nil_iff.mpr down]
  rfl

theorem exists_of_voteHealthy (b : RoundRobin) (service : String)
    {candidates : List ServiceInstance} (up : ¬∀ i ∈ candidates, i.isUp = false) :
    ∃ i ∈ candidates, i.isUp = true ∧ (b.voteHealthy service candidates).1 = .ok i := by
  obtain ⟨i, place, voted⟩ := b.vote_eq_of_ne_nil service (mt filter_isUp_eq_nil_iff.mp up)
  obtain ⟨mem, is_up⟩ := List.mem_filter.mp (List.mem_of_getElem? place)
  exact ⟨i, mem, is_up, by rw [voteHealthy_eq, voted]⟩

/-! ### Runs -/

def Operation.screened : Operation → Operation
  | .vote service candidates => .vote service (candidates.filter (·.isUp))
  | o => o

def Operation.elects (service : String) : Operation → Bool
  | .vote s candidates => s == service && !candidates.isEmpty
  | _ => false

def performHealthy (b : RoundRobin) : Operation → Answer × RoundRobin
  | .vote service candidates =>
    (.voted (b.voteHealthy service candidates).1, (b.voteHealthy service candidates).2)
  | o => b.perform o

def traceHealthy : RoundRobin → List Operation → List (Operation × Answer) :=
  Runs.trace performHealthy

def afterHealthy : RoundRobin → List Operation → RoundRobin := Runs.after performHealthy

theorem performHealthy_eq (b : RoundRobin) (o : Operation) :
    b.performHealthy o = b.perform o.screened := by
  cases o with
  | vote service candidates => rw [performHealthy, voteHealthy_eq]; rfl
  | forget | count => rfl

theorem traceHealthy_eq (b : RoundRobin) (ops : List Operation) :
    (b.traceHealthy ops).map (fun e => (e.1.screened, e.2)) = b.trace (ops.map (·.screened)) ∧
      b.afterHealthy ops = b.after (ops.map (·.screened)) := by
  rw [trace_eq]
  exact Runs.trace_map performHealthy performHealthy_eq b ops

theorem election?_screened (service : String) (e : Operation × Answer) :
    election? service (e.1.screened, e.2) =
      (election? service e).map fun v => (v.1.filter (·.isUp), v.2) := by
  obtain ⟨o, a⟩ := e
  cases o with
  | vote s candidates =>
    cases a with
    | voted r =>
      cases r with
      | ok i =>
        unfold election? Operation.screened
        by_cases same : s = service <;> simp [same]
      | error f => rfl
    | forgotten | counted => rfl
  | forget | count => rfl

theorem length_positions (b : RoundRobin) (service : String) (ops : List Operation) :
    (b.positions service ops).length = ops.countP (·.elects service) := by
  induction ops generalizing b with
  | nil => rfl
  | cons o ops ih =>
    rw [positions, List.length_append, ih, List.countP_cons, Nat.add_comm]
    congr 1
    cases o with
    | vote s candidates =>
      unfold position? Operation.elects
      by_cases same : s = service <;> cases candidates <;> simp [same]
    | forget | count => rfl

theorem healthy_elections_at_positions (b : RoundRobin) (service : String) (ops : List Operation) :
    List.Forall₂ (fun vote p => vote.2.isUp = true ∧ (vote.1.filter (·.isUp))[p]? = some vote.2)
      ((b.traceHealthy ops).filterMap (election? service))
      (b.positions service (ops.map (·.screened))) := by
  have placed := b.elections_at_positions service (ops.map (·.screened))
  have shortened : (b.trace (ops.map (·.screened))).filterMap (election? service) =
      ((b.traceHealthy ops).filterMap (election? service)).map
        fun v => (v.1.filter (·.isUp), v.2) := by
    rw [← (b.traceHealthy_eq ops).1, List.filterMap_map, List.map_filterMap]
    exact List.filterMap_congr fun e _ => election?_screened service e
  rw [shortened, List.forall₂_map_left_iff] at placed
  exact placed.imp fun vote p place =>
    ⟨(List.mem_filter.mp (List.mem_of_getElem? place)).2, place⟩

/-! ### Lookups -/

inductive Step where
  | cache (o : InstanceCache.Operation)
  | lookup (service : String)

/-- A lookup that was made, and what was known of the service at the time. -/
structure Lookup where
  service : String
  known : List ServiceInstance
  answer : Except Failure ServiceInstance

def lookups
    (look : InstanceCache → String → RoundRobin → Except Failure ServiceInstance × RoundRobin)
    (c : InstanceCache) (b : RoundRobin) : List Step → List Lookup × RoundRobin
  | [] => ([], b)
  | .cache o :: steps => lookups look (c.perform o).1 b steps
  | .lookup service :: steps =>
    let made := look c service b
    let rest := lookups look c made.2 steps
    (⟨service, c.instances service, made.1⟩ :: rest.1, rest.2)

theorem lookup_eq_voteHealthy (c : InstanceCache) (service : String) (b : RoundRobin) :
    c.lookup service b = b.voteHealthy service (c.instances service) :=
  (b.voteHealthy_eq service (c.instances service)).symm

theorem lookupHealthy_eq_lookup : InstanceCache.lookupHealthy = InstanceCache.lookup := by
  funext c service b
  have up : (c.candidates service).filter (·.isUp) = c.candidates service :=
    List.filter_eq_self.mpr fun i hi => (List.mem_filter.mp hi).2
  rw [InstanceCache.lookupHealthy, voteHealthy_eq, up, InstanceCache.lookup]

/-- A lookup gives an instance that is known and up, and fails if there is none. -/
def Lookup.Sound (l : Lookup) : Prop :=
  if ∀ i ∈ l.known, i.isUp = false then l.answer = .error (.emptyCandidates l.service)
  else ∃ i ∈ l.known, i.isUp = true ∧ l.answer = .ok i

theorem sound_lookup (c : InstanceCache) (service : String) (b : RoundRobin) :
    (Lookup.mk service (c.instances service) (c.lookup service b).1).Sound := by
  rw [lookup_eq_voteHealthy]
  unfold Lookup.Sound
  split
  · rename_i down
    exact congrArg Prod.fst (b.voteHealthy_of_all_down service down)
  · rename_i up
    exact b.exists_of_voteHealthy service up

theorem sound_lookups {c : InstanceCache} {b : RoundRobin} {steps : List Step} :
    ∀ l ∈ (lookups InstanceCache.lookup c b steps).1, l.Sound := by
  induction steps generalizing c b with
  | nil => exact List.forall_mem_nil _
  | cons step steps ih =>
    cases step with
    | cache o => exact ih
    | lookup service => exact List.forall_mem_cons.mpr ⟨sound_lookup c service b, ih⟩

/-- A run of votes among the candidates that are up is a run of plain votes on the lists without
those that are down; on a list where all are down a vote is refused and moves nothing. So where the
lists of a service keep the number of those that are up, each position among these is picked its
share of times, rounded down or up, and nobody who is down is given. With a cache, whatever is done
to it, the lookups are the same either way: each gives an instance that the cache knows at the time
and that is up, and fails exactly if there is none. -/
theorem healthy_votes_rotate (b : RoundRobin) (ops : List Operation) :
    ((b.traceHealthy ops).map (fun e => (e.1.screened, e.2)) = b.trace (ops.map (·.screened)) ∧
      b.afterHealthy ops = b.after (ops.map (·.screened))) ∧
    (∀ service candidates, (∀ i ∈ candidates, i.isUp = false) →
      (b.afterHealthy ops).voteHealthy service candidates =
        (.error (.emptyCandidates service), b.afterHealthy ops)) ∧
    (∀ service k, 0 < k → (∀ o ∈ ops, o.screened.Keeps service k) →
      let votes := (b.traceHealthy ops).filterMap (election? service)
      let positions := b.positions service (ops.map (·.screened))
      let n := ops.countP (·.screened.elects service)
      List.Forall₂ (fun vote p => vote.2.isUp = true ∧ (vote.1.filter (·.isUp))[p]? = some vote.2)
        votes positions ∧
      positions.length = n ∧
      ∀ p < k, positions.count p = n / k ∨ positions.count p = (n + k - 1) / k) ∧
    ∀ (c : InstanceCache) (steps : List Step),
      lookups InstanceCache.lookupHealthy c b steps = lookups InstanceCache.lookup c b steps ∧
      ∀ l ∈ (lookups InstanceCache.lookupHealthy c b steps).1, l.Sound := by
  refine ⟨b.traceHealthy_eq ops, fun service candidates down => ?_, fun service k pos keeps => ?_,
    fun c steps => ?_⟩
  · exact (b.afterHealthy ops).voteHealthy_of_all_down service down
  · intro votes positions n
    have length : positions.length = n := by
      rw [length_positions, List.countP_map]
      rfl
    have turns := b.positions_of_keeps (List.forall_mem_map.mpr keeps)
    refine ⟨b.healthy_elections_at_positions service ops, length, fun p inside => ?_⟩
    have share := count_rotation_eq_or (b.next service) positions.length inside
    rwa [← turns, length] at share
  · rw [lookupHealthy_eq_lookup]
    exact ⟨rfl, sound_lookups⟩

/-- Three votes on lists with two instances that are up, among others that are down and that change
their places, and a vote on a list where all are down. -/
theorem healthy_votes_rotate_of_moved :
    let up (n : Nat) := ServiceInstance.new "billing" (Decimal.string n) "http://x"
    let down (n : Nat) := (up n).withStatus .down
    let ops : List Operation := [.vote "billing" [up 1, down 2, up 3],
      .vote "billing" [down 2, down 4], .vote "billing" [down 4, down 2, up 1, up 3],
      .vote "mail" [up 7], .vote "billing" [down 1, up 5, up 3, down 2]]
    let positions := positions {} "billing" (ops.map (·.screened))
    0 < 2 ∧ (∀ o ∈ ops, o.screened.Keeps "billing" 2) ∧
    positions.length = 3 ∧ (positions.count 1 = 1 ∨ positions.count 1 = 2) := by
  intro up down ops positions
  have keeps : ∀ o ∈ ops, o.screened.Keeps "billing" 2 := by
    simp only [ops, List.forall_mem_cons]
    exact ⟨fun _ => .inr rfl, fun _ => .inl rfl, fun _ => .inr rfl,
      fun same => absurd same (by decide), fun _ => .inr rfl, List.forall_mem_nil _⟩
  obtain ⟨-, -, fair, -⟩ := healthy_votes_rotate {} ops
  obtain ⟨-, length, share⟩ := fair "billing" 2 (by decide) keeps
  have three : ops.countP (·.screened.elects "billing") = 3 := by decide +kernel
  rw [three] at length share
  exact ⟨by decide, keeps, length, share 1 (by decide)⟩

end ServiceDirectory.RoundRobin
