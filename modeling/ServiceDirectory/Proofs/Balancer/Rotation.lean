import Mathlib.Data.Int.CardIntervalMod
import Mathlib.Algebra.BigOperators.Group.Finset.Basic
import ServiceDirectory.Balancer
import ServiceDirectory.Proofs.Runs

/-! Runs of the operations on a round robin. The votes for a service pick one position after the
other, and after the last one the first again; only they and forgetting the service move its
cursor. So if the lists of the service keep their length, the positions are picked equally often, up
to one vote. Votes on empty lists leave no trace. -/
namespace ServiceDirectory.RoundRobin

/-! ### Positions in turn -/

/-- The positions of `n` votes on lists of the length `k`. -/
def rotation (start k n : Nat) : List Nat := (List.range n).map fun j => (start + j) % k

theorem length_rotation (start k n : Nat) : (rotation start k n).length = n := by
  rw [rotation, List.length_map, List.length_range]

theorem rotation_succ (start k n : Nat) :
    rotation start k (n + 1) = start % k :: rotation (start + 1) k n := by
  rw [rotation, List.range_succ_eq_map, List.map_cons, List.map_map]
  refine congrArg (_ :: ·) (List.map_congr_left fun j _ => ?_)
  rw [Function.comp_apply, Nat.add_right_comm]
  rfl

theorem rotation_concat (start k n : Nat) :
    rotation start k (n + 1) = rotation start k n ++ [(start + n) % k] := by
  rw [rotation, List.range_succ, List.map_append]
  rfl

theorem rotation_mod (start k n : Nat) : rotation (start % k) k n = rotation start k n :=
  List.map_congr_left fun j _ => Nat.mod_add_mod start k j

theorem count_rotation {p k : Nat} (start n : Nat) (h : p < k) :
    (rotation start k n).count p =
      n / k + if (p + (k - start % k)) % k < n % k then 1 else 0 := by
  have lap : start % k < k := Nat.mod_lt _ (Nat.zero_lt_of_lt h)
  have meets (j : Nat) : (start + j) % k = p ↔ j ≡ p + (k - start % k) [MOD k] := by
    have whole : p + (k - start % k) + start % k = p + k := by omega
    calc (start + j) % k = p
        ↔ j + start % k ≡ p + k [MOD k] := by
          rw [Nat.ModEq, Nat.add_mod_mod, Nat.add_mod_right, Nat.mod_eq_of_lt h, Nat.add_comm]
      _ ↔ j ≡ p + (k - start % k) [MOD k] := by
          rw [← whole]
          exact ⟨Nat.ModEq.add_right_cancel' _, Nat.ModEq.add_right _⟩
  have counted : (rotation start k n).count p =
      n.count (· ≡ p + (k - start % k) [MOD k]) := by
    rw [rotation, List.count_eq_countP, List.countP_map, Nat.count]
    refine List.countP_congr fun j _ => ?_
    simp [meets]
  rw [counted, Nat.count_modEq_card n (Nat.zero_lt_of_lt h)]

theorem count_rotation_eq_or {p k : Nat} (start n : Nat) (h : p < k) :
    (rotation start k n).count p = n / k ∨ (rotation start k n).count p = (n + k - 1) / k := by
  rw [count_rotation start n h]
  split
  · rename_i more
    have split := Nat.div_add_mod n k
    have short : n % k < k := Nat.mod_lt n (Nat.zero_lt_of_lt h)
    have little : (n % k - 1) / k = 0 := Nat.div_eq_of_lt (by omega)
    refine .inr ?_
    calc n / k + 1
        = (n % k - 1 + k * (n / k + 1)) / k := by
          rw [Nat.add_mul_div_left _ _ (Nat.zero_lt_of_lt h), little, Nat.zero_add]
      _ = (n + k - 1) / k := by
          rw [Nat.mul_add_one]
          congr 1
          omega
  · exact .inl rfl

theorem sum_count_rotation {k : Nat} (start n : Nat) (pos : 0 < k) :
    ∑ p ∈ Finset.range k, (rotation start k n).count p = n := by
  have inside : ∀ p ∈ (rotation start k n : Multiset Nat), p ∈ Finset.range k := by
    intro p hp
    obtain ⟨j, -, rfl⟩ := List.mem_map.mp (Multiset.mem_coe.mp hp)
    exact Finset.mem_range.mpr (Nat.mod_lt _ pos)
  have all := Multiset.sum_count_eq_card inside
  simpa only [Multiset.coe_count, Multiset.coe_card, length_rotation] using all

/-! ### Cursors -/

/-- The position that comes next for a service; its remainder is the one that is picked. -/
def next (b : RoundRobin) (service : String) : Nat :=
  ((b.cursors.get? service).map (·.next)).getD 0

theorem fst_pick (b : RoundRobin) (service : String) (n : Nat) :
    (b.pick service n).1 = b.next service % n := by
  rw [pick_eq_advanceOrPlace, next]
  unfold advanceOrPlace Cursor.advance
  cases b.cursors.get? service <;> rfl

theorem next_pick (b : RoundRobin) (s service : String) (n : Nat) :
    (b.pick s n).2.next service =
      if service = s then (b.next s % n + 1) % n else b.next service := by
  rw [← fst_pick, pick_eq_advanceOrPlace]
  unfold advanceOrPlace next
  rw [Dictionary.get?_insert]
  split <;> rfl

theorem next_forget {b : RoundRobin} {s service : String} (h : service ≠ s) :
    (b.forget s).next service = b.next service := by
  unfold forget next
  rw [Dictionary.get?_erase, if_neg h]

theorem vote_eq_of_ne_nil (b : RoundRobin) (service : String) {candidates : List ServiceInstance}
    (h : candidates ≠ []) :
    ∃ i, candidates[b.next service % candidates.length]? = some i ∧
      b.vote service candidates = (.ok i, (b.pick service candidates.length).2) := by
  obtain ⟨first, rest, rfl⟩ := List.exists_cons_of_ne_nil h
  have inside := b.pick_lt service (n := (first :: rest).length) (Nat.succ_pos _)
  refine ⟨(first :: rest)[(b.pick service (first :: rest).length).1], ?_, rfl⟩
  rw [← fst_pick]
  exact List.getElem?_eq_getElem inside

/-! ### Runs -/

inductive Operation where
  | vote (service : String) (candidates : List ServiceInstance)
  | forget (service : String)
  | count

inductive Answer where
  | voted (r : Except Failure ServiceInstance)
  | forgotten
  | counted (services : Nat)

def perform (b : RoundRobin) : Operation → Answer × RoundRobin
  | .vote service candidates =>
    (.voted (b.vote service candidates).1, (b.vote service candidates).2)
  | .forget service => (.forgotten, b.forget service)
  | .count => (.counted b.serviceCount, b)

def trace (b : RoundRobin) : List Operation → List (Operation × Answer)
  | [] => []
  | o :: ops => (o, (b.perform o).1) :: trace (b.perform o).2 ops

def after (b : RoundRobin) (ops : List Operation) : RoundRobin :=
  ops.foldl (fun b o => (b.perform o).2) b

theorem trace_eq (b : RoundRobin) (ops : List Operation) :
    b.trace ops = Runs.trace perform b ops := by
  induction ops generalizing b with
  | nil => rfl
  | cons o ops ih => exact congrArg (_ :: ·) (ih _)

def Operation.isVain : Operation → Bool
  | .vote _ [] => true
  | _ => false

def election? (service : String) :
    Operation × Answer → Option (List ServiceInstance × ServiceInstance)
  | (.vote s candidates, .voted (.ok i)) => if s = service then some (candidates, i) else none
  | _ => none

def position? (b : RoundRobin) (service : String) : Operation → Option Nat
  | .vote s candidates =>
    if s = service ∧ candidates ≠ [] then some (b.pick s candidates.length).1 else none
  | _ => none

def positions (b : RoundRobin) (service : String) : List Operation → List Nat
  | [] => []
  | o :: ops => (b.position? service o).toList ++ positions (b.perform o).2 service ops

/-- The operation does not touch the cursor of a service, or is a vote on a list of the length
`k`. -/
def Operation.Keeps (service : String) (k : Nat) : Operation → Prop
  | .vote s candidates => s = service → candidates = [] ∨ candidates.length = k
  | .forget s => s ≠ service
  | .count => True

theorem perform_of_isVain {b : RoundRobin} {o : Operation} (h : o.isVain = true) :
    (b.perform o).2 = b := by
  cases o with
  | vote s candidates =>
    cases candidates with
    | nil => rfl
    | cons i rest => cases h
  | forget s => cases h
  | count => cases h

theorem election_at_position (b : RoundRobin) (service : String) (o : Operation) :
    Option.Rel (fun e p => e.1[p]? = some e.2) (election? service (o, (b.perform o).1))
      (b.position? service o) := by
  cases o with
  | vote s candidates =>
    by_cases none : candidates = []
    · subst none
      rw [position?, if_neg fun h => h.2 rfl]
      exact .none
    · obtain ⟨i, place, voted⟩ := b.vote_eq_of_ne_nil s none
      by_cases same : s = service
      · rw [perform, voted, position?, election?, if_pos same, if_pos ⟨same, none⟩, fst_pick]
        exact .some place
      · rw [perform, voted, position?, election?, if_neg same, if_neg fun h => same h.1]
        exact .none
  | forget s => exact .none
  | count => exact .none

theorem elections_at_positions (b : RoundRobin) (service : String) (ops : List Operation) :
    List.Forall₂ (fun e p => e.1[p]? = some e.2) ((b.trace ops).filterMap (election? service))
      (b.positions service ops) := by
  induction ops generalizing b with
  | nil => exact .nil
  | cons o ops ih =>
    have once := b.election_at_position service o
    rw [trace, List.filterMap_cons, positions]
    generalize election? service (o, (b.perform o).1) = e? at once ⊢
    generalize b.position? service o = p? at once ⊢
    cases once with
    | none => exact ih _
    | some place => exact .cons place (ih _)

/-- A vote on a list of the length `k` picks the position whose turn it is, and then the next one
has its turn; no other operation that keeps the length of the lists gives or takes one. -/
theorem perform_of_keeps (b : RoundRobin) {service : String} {k : Nat} {o : Operation}
    (h : o.Keeps service k) :
    b.position? service o = none ∧ (b.perform o).2.next service = b.next service ∨
      b.position? service o = some (b.next service % k) ∧
        (b.perform o).2.next service = (b.next service % k + 1) % k := by
  cases o with
  | vote s candidates =>
    by_cases none : candidates = []
    · subst none
      exact .inl ⟨if_neg fun h => h.2 rfl, rfl⟩
    · obtain ⟨i, -, voted⟩ := b.vote_eq_of_ne_nil s none
      rw [perform, voted, next_pick, position?, fst_pick]
      by_cases same : s = service
      · rw [if_pos ⟨same, none⟩, if_pos same.symm, same, (h same).resolve_left none]
        exact .inr ⟨rfl, rfl⟩
      · rw [if_neg fun h => same h.1, if_neg (Ne.symm same)]
        exact .inl ⟨rfl, rfl⟩
  | forget s => exact .inl ⟨rfl, next_forget (Ne.symm h)⟩
  | count => exact .inl ⟨rfl, rfl⟩

theorem positions_of_keeps (b : RoundRobin) {service : String} {k : Nat} {ops : List Operation}
    (h : ∀ o ∈ ops, o.Keeps service k) :
    b.positions service ops =
      rotation (b.next service) k (b.positions service ops).length := by
  induction ops generalizing b with
  | nil => rfl
  | cons o ops ih =>
    obtain ⟨keeps, rest⟩ := List.forall_mem_cons.mp h
    have later := ih (b.perform o).2 rest
    rcases b.perform_of_keeps keeps with ⟨unpicked, same⟩ | ⟨picked, moved⟩
    · rw [positions, unpicked]
      rwa [same] at later
    · rw [positions, picked]
      rw [moved, rotation_mod, ← rotation_mod, Nat.mod_add_mod, rotation_mod] at later
      rw [Option.toList_some, List.singleton_append, List.length_cons, rotation_succ, ← later]

/-! ### Fairness -/

theorem trace_filter (b : RoundRobin) (ops : List Operation) :
    (b.trace ops).filter (!·.1.isVain) = b.trace (ops.filter (!·.isVain)) ∧
      b.after ops = b.after (ops.filter (!·.isVain)) := by
  rw [trace_eq, trace_eq]
  exact Runs.trace_filter perform (fun _ _ vain => perform_of_isVain vain) b ops

theorem mem_trace {b : RoundRobin} {ops : List Operation} {e : Operation × Answer}
    (h : e ∈ b.trace ops) : ∃ b' : RoundRobin, e.2 = (b'.perform e.1).1 :=
  Runs.exists_of_mem_trace perform (b.trace_eq ops ▸ h)

/-- Whatever happened to a round robin before, the votes for a service whose lists keep their
length pick consecutive positions, so each position its share of times, rounded down or up. Votes
on empty lists are refused, and all other answers are as if they had not been. Every other vote
gives one of its candidates. -/
theorem votes_rotate (b : RoundRobin) (ops : List Operation) :
    (∀ service k, 0 < k → (∀ o ∈ ops, o.Keeps service k) →
      let votes := (b.trace ops).filterMap (election? service)
      let positions := b.positions service ops
      List.Forall₂ (fun vote p => vote.1[p]? = some vote.2) votes positions ∧
      positions = (List.range votes.length).map (fun j => (b.next service + j) % k) ∧
      (∀ p < k, positions.count p = votes.length / k ∨
        positions.count p = (votes.length + k - 1) / k) ∧
      ∑ p ∈ Finset.range k, positions.count p = votes.length) ∧
    ((b.trace ops).filter (!·.1.isVain) = b.trace (ops.filter (!·.isVain)) ∧
      b.after ops = b.after (ops.filter (!·.isVain))) ∧
    ∀ e ∈ b.trace ops, ∀ service candidates, e.1 = .vote service candidates →
      if candidates = [] then e.2 = .voted (.error (.emptyCandidates service))
      else ∃ i ∈ candidates, e.2 = .voted (.ok i) := by
  refine ⟨fun service k pos keeps => ?_, b.trace_filter ops, ?_⟩
  · have placed := b.elections_at_positions service ops
    have turns := b.positions_of_keeps keeps
    rw [← placed.length_eq] at turns
    refine ⟨placed, turns, fun p inside => ?_, ?_⟩
    · rw [turns]
      exact count_rotation_eq_or _ _ inside
    · rw [turns]
      exact sum_count_rotation _ _ pos
  · intro e answered service candidates vote
    obtain ⟨b', answer⟩ := mem_trace answered
    rw [answer, vote, perform]
    split
    · rename_i none
      rw [none]
      rfl
    · rename_i some
      obtain ⟨i, place, voted⟩ := b'.vote_eq_of_ne_nil service some
      exact ⟨i, List.mem_of_getElem? place, by rw [voted]⟩

/-- Four votes on a list of five, and then votes on lists of three with others between them. -/
theorem votes_rotate_of_shrunk :
    let i (n : Nat) := ServiceInstance.new "billing" (Decimal.string n) "http://x"
    let b := after {} (List.replicate 4 (.vote "billing" [i 0, i 1, i 2, i 3, i 4]))
    let ops : List Operation :=
      [.vote "billing" [i 5, i 6, i 7], .vote "mail" [i 8], .vote "billing" [], .forget "mail",
        .vote "billing" [i 5, i 9, i 7], .count, .vote "billing" [i 0, i 1, i 2]]
    0 < 3 ∧ (∀ o ∈ ops, o.Keeps "billing" 3) ∧ b.positions "billing" ops = [1, 2, 0] := by
  intro i b ops
  have keeps : ∀ o ∈ ops, o.Keeps "billing" 3 := by simp [ops, Operation.Keeps]
  refine ⟨by decide, keeps, ?_⟩
  exact ((votes_rotate b ops).1 "billing" 3 (by decide) keeps).2.1.trans (by decide +kernel)

end ServiceDirectory.RoundRobin
