import ServiceDirectory.Proofs.Balancer.Rotation

/-! Callers that vote for the same service at the same time. A vote looks for the cursor and
advances it if it is there; otherwise it makes a second access, which puts a cursor in place unless
another caller has done so, and advances it. Callers take their accesses in any order. Whichever of
its accesses picks the position, the balancer does what a whole vote would have done at that moment;
so the votes of all callers together rotate as those of one caller do. -/
namespace ServiceDirectory.RoundRobin

/-- A caller that votes some more times. -/
structure Voter where
  left : Nat
  /-- The first access of its next vote has found no cursor. -/
  missed : Bool := false
  /-- The positions that its votes have picked. -/
  picked : List Nat := []

def Voter.accesses (v : Voter) : Nat := 2 * v.left - v.missed.toNat

structure Poll where
  balancer : RoundRobin
  voters : List Voter

namespace Poll

def start (b : RoundRobin) (votes : List Nat) : Poll := ⟨b, votes.map fun n => { left := n }⟩

def step (service : String) (k : Nat) (p : Poll) (i : Nat) : Poll :=
  match p.voters[i]? with
  | some ⟨left + 1, missed, picked⟩ =>
    let access :=
      if missed then some (p.balancer.advanceOrPlace service k)
      else p.balancer.advancePresent service k
    match access with
    | some (position, balancer) =>
      ⟨balancer, p.voters.set i ⟨left, false, picked ++ [position]⟩⟩
    | none => { p with voters := p.voters.set i ⟨left + 1, true, picked⟩ }
  | _ => p

def run (service : String) (k : Nat) (p : Poll) (schedule : List Nat) : Poll :=
  schedule.foldl (step service k) p

def picked (p : Poll) : List Nat := p.voters.flatMap (·.picked)

variable {service : String} {k : Nat} {p : Poll} {i : Nat}

/-- A caller whose votes are over does nothing. Another finds that there is no cursor, or its
access does what a vote does. -/
theorem step_cases (service : String) (k : Nat) (p : Poll) (i : Nat) :
    (∀ v, p.voters[i]? = some v → v.left = 0) ∧ p.step service k i = p ∨
    ∃ v, p.voters[i]? = some v ∧ 0 < v.left ∧
      (v.missed = false ∧
          p.step service k i = { p with voters := p.voters.set i { v with missed := true } } ∨
        p.step service k i = ⟨(p.balancer.pick service k).2,
          p.voters.set i ⟨v.left - 1, false, v.picked ++ [(p.balancer.pick service k).1]⟩⟩) := by
  rcases here : p.voters[i]? with _ | ⟨_ | left, missed, picked⟩
  · exact .inl ⟨fun _ h => (nomatch h), by rw [step, here]⟩
  · exact .inl ⟨fun _ h => by cases h; rfl, by rw [step, here]⟩
  · refine .inr ⟨_, rfl, Nat.succ_pos left, ?_⟩
    cases missed with
    | true =>
      refine .inr ?_
      rw [step, here, pick_eq_advanceOrPlace]
      rfl
    | false =>
      cases access : p.balancer.advancePresent service k with
      | none => exact .inl ⟨rfl, by simp [step, here, access]⟩
      | some r =>
        have whole : p.balancer.pick service k = r := by rw [pick, access]; rfl
        exact .inr (by simp [step, here, access, whole])

/-- What the callers share out: the positions in turn, and each caller as many as it votes. -/
structure Fair (service : String) (k : Nat) (votes : List Nat) (p : Poll) : Prop where
  turn : p.balancer.next service ≡ p.picked.length [MOD k]
  rotates : p.picked.Perm (rotation 0 k p.picked.length)
  served : p.voters.map (fun v => v.picked.length + v.left) = votes

theorem fair_start {b : RoundRobin} (fresh : b.cursors.get? service = none) (k : Nat)
    (votes : List Nat) : Fair service k votes (start b votes) := by
  have none : (start b votes).picked = [] := by
    simp [start, picked]
  refine ⟨?_, ?_, ?_⟩
  · rw [none, start, next, fresh]
    rfl
  · rw [none]
    rfl
  · simp [start, Function.comp_def]

theorem exists_split {v : Voter} (here : p.voters[i]? = some v) :
    ∃ front rest, p.voters = front ++ v :: rest ∧
      ∀ v', p.voters.set i v' = front ++ v' :: rest := by
  obtain ⟨inside, rfl⟩ := List.getElem?_eq_some_iff.mp here
  refine ⟨p.voters.take i, p.voters.drop (i + 1), ?_, fun v' => ?_⟩
  · rw [← List.drop_eq_getElem_cons inside, List.take_append_drop]
  · rw [List.set_eq_take_append_cons_drop, if_pos inside]

theorem picked_of_split {v : Voter} {front rest : List Voter}
    (all : p.voters = front ++ v :: rest) :
    p.picked = front.flatMap (·.picked) ++ (v.picked ++ rest.flatMap (·.picked)) := by
  rw [picked, all, List.flatMap_append, List.flatMap_cons]

theorem Fair.step {votes : List Nat} (h : Fair service k votes p) (i : Nat) :
    Fair service k votes (p.step service k i) := by
  rcases p.step_cases service k i with ⟨-, same⟩ | ⟨v, here, left, ⟨-, missed⟩ | picks⟩
  · rwa [same]
  · obtain ⟨front, rest, all, put⟩ := exists_split here
    have positions : picked { p with voters := p.voters.set i { v with missed := true } } =
        p.picked := by
      rw [picked_of_split (put _), picked_of_split all]
    rw [missed]
    refine ⟨?_, ?_, ?_⟩
    · rw [positions]
      exact h.turn
    · rw [positions]
      exact h.rotates
    · rw [← h.served, put, all, List.map_append, List.map_append, List.map_cons, List.map_cons]
  · obtain ⟨front, rest, all, put⟩ := exists_split here
    have position : (p.balancer.pick service k).1 = (0 + p.picked.length) % k := by
      rw [fst_pick, Nat.zero_add]
      exact h.turn
    rw [picks]
    generalize p' : Poll.mk _ _ = q
    have more : q.picked.Perm (p.picked ++ [(p.balancer.pick service k).1]) := by
      rw [← p', picked_of_split (put _), picked_of_split all]
      simp only [List.append_assoc]
      exact (List.perm_append_comm.append_left _).append_left _
    have longer : q.picked.length = p.picked.length + 1 := by
      rw [more.length_eq, List.length_append, List.length_singleton]
    refine ⟨?_, ?_, ?_⟩
    · rw [longer, ← p', next_pick, if_pos rfl, Nat.ModEq, Nat.mod_mod, Nat.mod_add_mod]
      exact h.turn.add_right 1
    · rw [longer, rotation_concat, ← position]
      exact more.trans (h.rotates.append_right _)
    · have kept : v.picked.length + 1 + (v.left - 1) = v.picked.length + v.left := by omega
      rw [← h.served, ← p', put, all]
      simp only [List.map_append, List.map_cons, List.length_append, List.length_singleton, kept]

theorem Fair.run {votes : List Nat} (h : Fair service k votes p) (schedule : List Nat) :
    Fair service k votes (p.run service k schedule) := by
  induction schedule generalizing p with
  | nil => exact h
  | cons i schedule ih => exact ih (h.step i)

theorem accesses_step (service : String) (k : Nat) {v : Voter} (here : p.voters[i]? = some v)
    (j : Nat) :
    ∃ v', (p.step service k j).voters[i]? = some v' ∧
      v'.accesses ≤ v.accesses - [j].count i := by
  by_cases turn : j = i
  · subst turn
    rw [List.count_singleton_self]
    rcases p.step_cases service k j with ⟨spent, same⟩ | ⟨w, there, left, ⟨first, missed⟩ | picks⟩
    · refine ⟨v, by rw [same, here], ?_⟩
      simp [Voter.accesses, spent v here]
    all_goals
      obtain rfl : v = w := Option.some.inj (here.symm.trans there)
      have inside := (List.getElem?_eq_some_iff.mp here).1
    · refine ⟨{ v with missed := true }, by rw [missed, List.getElem?_set_self inside], ?_⟩
      simp [Voter.accesses, first]
    · refine ⟨_, by rw [picks, List.getElem?_set_self inside], ?_⟩
      have once := v.missed.toNat_le
      simp only [Voter.accesses, Bool.toNat_false]
      omega
  · rw [List.count_singleton, beq_eq_false_iff_ne.mpr turn]
    refine ⟨v, ?_, Nat.le_refl _⟩
    rcases p.step_cases service k j with ⟨-, same⟩ | ⟨w, -, -, ⟨-, missed⟩ | picks⟩
    · rw [same, here]
    · rw [missed, List.getElem?_set_ne turn, here]
    · rw [picks, List.getElem?_set_ne turn, here]

theorem accesses_run (service : String) (k : Nat) {v : Voter} (here : p.voters[i]? = some v)
    (schedule : List Nat) :
    ∃ v', (p.run service k schedule).voters[i]? = some v' ∧
      v'.accesses ≤ v.accesses - schedule.count i := by
  induction schedule generalizing p v with
  | nil => exact ⟨v, here, Nat.le_refl _⟩
  | cons j schedule ih =>
    obtain ⟨w, there, once⟩ := accesses_step service k here j
    obtain ⟨v', last, rest⟩ := ih there
    have all : (j :: schedule).count i = [j].count i + schedule.count i := by
      rw [← List.singleton_append, List.count_append]
    exact ⟨v', last, by omega⟩

theorem Fair.length_picked {votes : List Nat} (h : Fair service k votes p)
    (done : ∀ v ∈ p.voters, v.left = 0) : p.picked.length = votes.sum := by
  rw [picked, List.length_flatMap, ← h.served]
  refine congrArg List.sum (List.map_congr_left fun v hv => ?_)
  rw [done v hv, Nat.add_zero]

theorem done_of_turns {b : RoundRobin} {votes schedule : List Nat} {n : Nat}
    (wanted : votes[i]? = some n) (enough : 2 * n ≤ schedule.count i) :
    ∃ v, ((start b votes).run service k schedule).voters[i]? = some v ∧ v.left = 0 := by
  have first : (start b votes).voters[i]? = some { left := n } := by
    rw [start, List.getElem?_map, wanted]
    rfl
  obtain ⟨v, here, few⟩ := accesses_run service k first schedule
  have once := v.missed.toNat_le
  simp only [Voter.accesses, Bool.toNat_false] at few
  exact ⟨v, here, by omega⟩

end Poll

/-- However callers interleave the accesses of their votes for a service that had no cursor, the
positions that they have picked together are the first ones in turn, each as often as it comes up;
so no vote is lost and none is counted twice. The vote that comes next picks the position behind
them. A caller that gets two turns for each of its votes is done with them. -/
theorem poll_rotates {b : RoundRobin} {service : String} {k : Nat}
    (fresh : b.cursors.get? service = none) (pos : 0 < k) (votes schedule : List Nat) :
    let p := (Poll.start b votes).run service k schedule
    let n := p.picked.length
    p.picked.Perm ((List.range n).map (· % k)) ∧
    (∀ q < k, ∀ r < k, p.picked.count q ≤ p.picked.count r + 1) ∧
    (∀ candidates, candidates.length = k →
      ∃ i, candidates[n % k]? = some i ∧ (p.balancer.vote service candidates).1 = .ok i) ∧
    p.voters.map (fun v => v.picked.length + v.left) = votes ∧
    ((∀ v ∈ p.voters, v.left = 0) → n = votes.sum) ∧
    ∀ i m, votes[i]? = some m → 2 * m ≤ schedule.count i →
      ∃ v, p.voters[i]? = some v ∧ v.left = 0 := by
  intro p n
  have fair : Poll.Fair service k votes p := (Poll.fair_start fresh k votes).run schedule
  refine ⟨?_, ?_, ?_, fair.served, fair.length_picked, fun i m => Poll.done_of_turns⟩
  · simpa [rotation] using fair.rotates
  · intro q inside r inside'
    have share (x : Nat) (hx : x < k) : p.picked.count x = n / k ∨
        p.picked.count x = (n + k - 1) / k := by
      rw [fair.rotates.count_eq]
      exact count_rotation_eq_or 0 n hx
    have up : (n + k - 1) / k ≤ n / k + 1 := by
      rw [← Nat.add_div_right n pos]
      exact Nat.div_le_div_right (Nat.sub_le _ _)
    have down : n / k ≤ (n + k - 1) / k := Nat.div_le_div_right (by omega)
    rcases share q inside with hq | hq <;> rcases share r inside' with hr | hr <;> omega
  · intro candidates length
    have some : candidates ≠ [] := List.ne_nil_of_length_pos (length ▸ pos)
    obtain ⟨i, place, voted⟩ := p.balancer.vote_eq_of_ne_nil service some
    have turn : p.balancer.next service % k = n % k := fair.turn
    rw [length, turn] at place
    exact ⟨i, place, by rw [voted]⟩

/-- Both callers find no cursor; the second one is the first to put one in place. -/
theorem poll_rotates_of_both_missing :
    let b := after {} [.vote "mail" [.new "mail" "10.0.0.1" "http://10.0.0.1"]]
    let p := (Poll.start b [2, 1]).run "billing" 3 [0, 1, 1, 0, 0]
    b.cursors.get? "billing" = none ∧ 0 < 3 ∧ p.voters.map (·.picked) = [[1, 2], [0]] ∧
      p.picked.length = [2, 1].sum ∧ p.picked.Perm [0, 1, 2] := by
  intro b p
  have fresh : b.cursors.get? "billing" = none := by decide +kernel
  have all := poll_rotates fresh (by decide : 0 < 3) [2, 1] [0, 1, 1, 0, 0]
  have n : p.picked.length = [2, 1].sum := all.2.2.2.2.1 (by decide +kernel)
  refine ⟨fresh, by decide, by decide +kernel, n, all.1.trans ?_⟩
  exact .of_eq (congrArg (fun n => (List.range n).map (· % 3)) n)

end ServiceDirectory.RoundRobin
