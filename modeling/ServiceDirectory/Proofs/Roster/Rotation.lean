import ServiceDirectory.Proofs.Balancer.Rotation
import ServiceDirectory.Proofs.Roster
import ServiceDirectory.Proofs.Runs

/-! Runs of the operations on a roster. Only the first of several turns in a row can pass over an
endpoint, and it moves the place where they begin; from there they go through all positions in
order, and begin again. A list that is refused leaves no trace: neither the endpoints, nor the place
of the next turn, nor the mark change. -/
namespace ServiceDirectory.Roster

inductive Operation where
  | next
  | markConnected (e : Endpoint)
  | update (endpoints : List Endpoint)
  | updateFromStrings (servers : List String)

inductive Answer where
  | handedOut (e : Endpoint)
  | done
  | refused (f : Failure)

/-- A new list takes effect, or it is refused and the roster stays. -/
def settle (r : Roster) : Except Failure Roster → Answer × Roster
  | .ok replaced => (.done, replaced)
  | .error f => (.refused f, r)

def perform (r : Roster) : Operation → Answer × Roster
  | .next => (.handedOut r.next.1, r.next.2)
  | .markConnected e => (.done, r.markConnected e)
  | .update endpoints => r.settle (r.update endpoints)
  | .updateFromStrings servers => r.settle (r.updateFromStrings servers)

def trace : Roster → List Operation → List (Operation × Answer) := Runs.trace perform

def after : Roster → List Operation → Roster := Runs.after perform

def positions (r : Roster) : List Operation → List Nat
  | [] => []
  | .next :: ops => r.turn :: positions r.next.2 ops
  | o :: ops => positions (r.perform o).2 ops

def Operation.isVain : Operation → Bool
  | .update endpoints => endpoints.isEmpty
  | .updateFromStrings servers =>
    servers.isEmpty || servers.any fun s => !(Endpoint.parse s).isOk
  | _ => false

variable (r : Roster)

/-! ### Turns in a row -/

theorem positions_turns (n : Nat) :
    r.positions (List.replicate n .next) = RoundRobin.rotation r.turn r.size n := by
  induction n generalizing r with
  | zero => rfl
  | succ n ih =>
    have start : r.turn % r.size = r.turn := Nat.mod_eq_of_lt r.turn_lt
    calc r.positions (List.replicate (n + 1) .next)
        = r.turn :: r.advance.positions (List.replicate n .next) := by
          rw [List.replicate_succ, positions]; rfl
      _ = r.turn :: RoundRobin.rotation (r.turn + 1) r.size n := by
          rw [ih, turn_advance, size_advance, RoundRobin.rotation_mod]
      _ = RoundRobin.rotation r.turn r.size (n + 1) := by
          rw [RoundRobin.rotation_succ, start]

theorem rotation_lap (start k : Nat) :
    RoundRobin.rotation start k k = (List.range k).rotate start := by
  refine List.ext_getElem (by simp [RoundRobin.length_rotation]) fun j _ _ => ?_
  rw [List.getElem_rotate]
  simp [RoundRobin.rotation, Nat.add_comm]

theorem turns_at_positions (n : Nat) :
    List.Forall₂ (fun step p => ∃ e, step.2 = .handedOut e ∧ r.endpoints[p]? = some e)
      (r.trace (List.replicate n .next)) (r.positions (List.replicate n .next)) := by
  induction n generalizing r with
  | zero => exact .nil
  | succ n ih => exact .cons ⟨r.peek, rfl, List.getElem?_eq_getElem r.turn_lt⟩ (ih r.advance)

/-! ### Lists that are refused -/

theorem isOk_update (endpoints : List Endpoint) :
    (r.update endpoints).isOk = !endpoints.isEmpty := by
  cases endpoints <;> rfl

theorem isOk_parseAll (servers : List String) :
    (parseAll servers).isOk = servers.all fun s => (Endpoint.parse s).isOk := by
  induction servers with
  | nil => rfl
  | cons s servers ih =>
    rw [List.all_cons, ← ih, parseAll, parseAll, List.mapM_cons]
    cases Endpoint.parse s with
    | error f => rfl
    | ok e => cases List.mapM Endpoint.parse servers <;> rfl

theorem isEmpty_of_parseAll {servers : List String} {endpoints : List Endpoint}
    (read : parseAll servers = .ok endpoints) : endpoints.isEmpty = servers.isEmpty := by
  cases servers with
  | nil => exact Except.ok.inj read ▸ rfl
  | cons s servers =>
    rw [parseAll, List.mapM_cons] at read
    cases first : Endpoint.parse s with
    | error f => rw [first] at read; cases read
    | ok e =>
      cases rest : List.mapM Endpoint.parse servers with
      | error f => rw [first, rest] at read; cases read
      | ok es => rw [first, rest] at read; exact Except.ok.inj read ▸ rfl

theorem isOk_updateFromStrings (servers : List String) :
    (r.updateFromStrings servers).isOk = !(Operation.updateFromStrings servers).isVain := by
  have reads := isOk_parseAll servers
  rw [Operation.isVain, Bool.not_or, ← List.not_all_eq_any_not, Bool.not_not, ← reads,
    updateFromStrings]
  cases read : parseAll servers with
  | error f => exact (Bool.and_false _).symm
  | ok endpoints =>
    calc (r.update endpoints).isOk
        = !servers.isEmpty := by rw [isOk_update, isEmpty_of_parseAll read]
      _ = (!servers.isEmpty && true) := (Bool.and_true _).symm

theorem refused_settle_iff (replaced : Except Failure Roster) :
    (∃ f, (r.settle replaced).1 = .refused f) ↔ replaced.isOk = false := by
  cases replaced with
  | ok r' => exact iff_of_false (fun ⟨_, h⟩ => nomatch h) Bool.noConfusion
  | error f => exact iff_of_true ⟨f, rfl⟩ rfl

theorem refused_iff_isVain (o : Operation) :
    (∃ f, (r.perform o).1 = .refused f) ↔ o.isVain = true := by
  cases o with
  | next => exact iff_of_false (fun ⟨_, h⟩ => nomatch h) Bool.noConfusion
  | markConnected e => exact iff_of_false (fun ⟨_, h⟩ => nomatch h) Bool.noConfusion
  | update endpoints =>
    rw [perform, refused_settle_iff, isOk_update, Bool.not_eq_false']
    rfl
  | updateFromStrings servers =>
    rw [perform, refused_settle_iff, isOk_updateFromStrings, Bool.not_eq_false']

theorem perform_of_refused {o : Operation} {f : Failure} (h : (r.perform o).1 = .refused f) :
    (r.perform o).2 = r := by
  have settled {replaced : Except Failure Roster} (h : (r.settle replaced).1 = .refused f) :
      (r.settle replaced).2 = r := by
    cases replaced with
    | ok r' => cases h
    | error f => rfl
  cases o with
  | next | markConnected => cases h
  | update | updateFromStrings => exact settled h

theorem perform_of_isVain (o : Operation) (vain : o.isVain = true) : (r.perform o).2 = r := by
  obtain ⟨f, refused⟩ := (r.refused_iff_isVain o).mpr vain
  exact r.perform_of_refused refused

/-- Whatever was done to a roster before, and whether a mark is pending or not: as many turns in a
row as there are positions hand out what stands at each position, once and in cyclic order, and the
turn after them comes back to the first of them. A list is refused exactly if it has no endpoint or
a text that is none, and then all other answers are as if it had not been offered. -/
theorem turns_rotate (r : Roster) (ops : List Operation) :
    let turns := List.replicate r.size Operation.next
    (List.Forall₂ (fun step p => ∃ e, step.2 = .handedOut e ∧ r.endpoints[p]? = some e)
        (r.trace turns) (r.positions turns) ∧
      r.positions turns = (List.range r.size).map (fun j => (r.turn + j) % r.size) ∧
      (r.positions turns).Perm (List.range r.size) ∧
      (r.positions turns).head? = some r.turn ∧
      r.positions (turns ++ [.next]) = r.positions turns ++ [r.turn]) ∧
    (∀ e ∈ r.trace ops, (∃ f, e.2 = .refused f) ↔ e.1.isVain = true) ∧
    (r.trace ops).filter (!·.1.isVain) = r.trace (ops.filter (!·.isVain)) ∧
    r.after ops = r.after (ops.filter (!·.isVain)) := by
  intro turns
  have places : r.positions turns = RoundRobin.rotation r.turn r.size r.size :=
    r.positions_turns r.size
  refine ⟨⟨r.turns_at_positions r.size, places, ?_, ?_, ?_⟩,
    fun e answered => ?_, Runs.trace_filter perform perform_of_isVain r ops⟩
  · rw [places, rotation_lap]
    exact List.rotate_perm _ _
  · have inside : r.turn < (List.range r.size).length := by
      rw [List.length_range]
      exact r.turn_lt
    rw [places, rotation_lap, List.head?_rotate inside, List.getElem?_range r.turn_lt]
  · have again : turns ++ [.next] = List.replicate (r.size + 1) .next :=
      List.replicate_succ'.symm
    rw [again, positions_turns, RoundRobin.rotation_concat, Nat.add_mod_right,
      Nat.mod_eq_of_lt r.turn_lt, places]
  · obtain ⟨r', answer⟩ := Runs.exists_of_mem_trace perform answered
    rw [answer]
    exact r'.refused_iff_isVain e.1

/-- The first turn passes over the marked server, the fourth does not. -/
example : positions ⟨[⟨"a", 1⟩, ⟨"b", 2⟩, ⟨"c", 3⟩], 3, some ⟨"a", 1⟩, by simp⟩
    [.next, .update [], .next, .next, .updateFromStrings ["d:4", "e"], .next] = [1, 2, 0, 1] := by
  decide +kernel

end ServiceDirectory.Roster
