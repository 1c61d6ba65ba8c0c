/-! Runs of operations on a state, each of which has an answer and leads to the next state. An
operation that leaves every state as it is leaves no trace but its own answer, and where each
operation of one kind of run does what another one does in a second kind, so do the runs. -/
namespace ServiceDirectory.Runs

variable {State Operation Answer : Type} (perform : State → Operation → Answer × State)

def trace (s : State) : List Operation → List (Operation × Answer)
  | [] => []
  | o :: ops => (o, (perform s o).1) :: trace (perform s o).2 ops

def after (s : State) (ops : List Operation) : State := ops.foldl (fun s o => (perform s o).2) s

theorem exists_of_mem_trace {s : State} {ops : List Operation} {e : Operation × Answer}
    (h : e ∈ trace perform s ops) : ∃ s', e.2 = (perform s' e.1).1 := by
  induction ops generalizing s with
  | nil => cases h
  | cons o ops ih =>
    rcases List.mem_cons.mp h with rfl | later
    · exact ⟨s, rfl⟩
    · exact ih later

theorem trace_filter {vain : Operation → Bool}
    (still : ∀ s o, vain o = true → (perform s o).2 = s) (s : State) (ops : List Operation) :
    (trace perform s ops).filter (!vain ·.1) = trace perform s (ops.filter (!vain ·)) ∧
      after perform s ops = after perform s (ops.filter (!vain ·)) := by
  induction ops generalizing s with
  | nil => exact ⟨rfl, rfl⟩
  | cons o ops ih =>
    obtain ⟨answers, state⟩ := ih (perform s o).2
    by_cases here : vain o = true
    · rw [still s o here] at answers state
      rw [trace, List.filter_cons_of_neg (by simp [here]), List.filter_cons_of_neg (by simp [here]),
        still s o here, after, List.foldl_cons, still s o here]
      exact ⟨answers, state⟩
    · rw [trace, List.filter_cons_of_pos (by simp [here]), List.filter_cons_of_pos (by simp [here]),
        trace, answers]
      exact ⟨rfl, state⟩

theorem trace_map {perform' : State → Operation → Answer × State} {f : Operation → Operation}
    (same : ∀ s o, perform s o = perform' s (f o)) (s : State) (ops : List Operation) :
    (trace perform s ops).map (fun e => (f e.1, e.2)) = trace perform' s (ops.map f) ∧
      after perform s ops = after perform' s (ops.map f) := by
  induction ops generalizing s with
  | nil => exact ⟨rfl, rfl⟩
  | cons o ops ih =>
    obtain ⟨answers, state⟩ := ih (perform s o).2
    rw [trace, List.map_cons, answers, List.map_cons, trace, ← same]
    refine ⟨rfl, state.trans ?_⟩
    rw [same]
    rfl

end ServiceDirectory.Runs
