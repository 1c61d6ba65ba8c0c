import ServiceDirectory.Proofs.Cache.Revisions
import ServiceDirectory.Proofs.Dictionary

/-! Runs of the operations on a cache. One operation revises the list of one service, and its
handlers hear what the revisions tell; nobody hears of anything else. Only `clear` empties lists
without a word. -/
namespace ServiceDirectory.InstanceCache

inductive Operation where
  | apply (n : Notification)
  | updateService (service : String) (instances : List ServiceInstance)
  | clear
  | addHandler (service label : String)
  | removeHandlers (service : String)

def perform (c : InstanceCache) : Operation → InstanceCache × List HandlerCall
  | .apply n => c.apply n
  | .updateService service instances => c.updateService service instances
  | .clear => (c.clear, [])
  | .addHandler service label => (c.addHandler service label, [])
  | .removeHandlers service => (c.removeHandlers service, [])

inductive Reachable : InstanceCache → Prop
  | start : Reachable {}
  | step {c : InstanceCache} (o : Operation) : Reachable c → Reachable (c.perform o).1

def run (c : InstanceCache) (os : List Operation) : InstanceCache :=
  os.foldl (fun c o => (c.perform o).1) c

theorem Reachable.run {c : InstanceCache} (h : Reachable c) (os : List Operation) :
    Reachable (c.run os) := by
  induction os generalizing c with
  | nil => exact h
  | cons o os ih => exact ih (.step o h)

def handlersOf (c : InstanceCache) (service : String) : List String :=
  (c.handlers.get? service).getD []

/-- A handler that is registered once, for one service. -/
structure Hears (c : InstanceCache) (service handler : String) : Prop where
  once : (c.handlersOf service).count handler = 1
  alone : ∀ s, s ≠ service → handler ∉ c.handlersOf s

def heard (handler : String) (calls : List HandlerCall) : List Change :=
  calls.filterMap fun call => if call.handler = handler then some call.change else none

theorem heard_map (handler : String) (labels : List String) (change : Change) :
    heard handler (labels.map (⟨·, change⟩)) =
      List.replicate (labels.count handler) change := by
  induction labels with
  | nil => rfl
  | cons label labels ih =>
    rw [heard] at ih
    by_cases same : label = handler
    · simp [heard, same, ih, List.replicate_succ]
    · simp [heard, same, ih]

theorem heard_calls (c : InstanceCache) (service handler : String) (changes : List Change) :
    heard handler (c.calls service changes) = changes.flatMap fun change =>
      List.replicate ((c.handlersOf service).count handler) change := by
  induction changes with
  | nil => rfl
  | cons change changes ih =>
    rw [calls, List.flatMap_cons, List.flatMap_cons, ← ih, heard, List.filterMap_append]
    exact congrArg (· ++ _) (heard_map handler (c.handlersOf service) change)

theorem Hears.heard_calls_self {c : InstanceCache} {service handler : String}
    (h : c.Hears service handler) (changes : List Change) :
    heard handler (c.calls service changes) = changes := by
  rw [heard_calls, h.once]
  simp

theorem Hears.heard_calls_other {c : InstanceCache} {service s handler : String}
    (h : c.Hears service handler) (other : s ≠ service) (changes : List Change) :
    heard handler (c.calls s changes) = [] := by
  rw [heard_calls, List.count_eq_zero.mpr (h.alone s other)]
  simp

theorem instances_of_unknown {c : InstanceCache} {service : String}
    (h : c.services.get? service = none) : c.instances service = [] := by
  rw [instances, h]
  rfl

theorem instances_of_known {c : InstanceCache} {service : String} {l : List ServiceInstance}
    (h : c.services.get? service = some l) : c.instances service = l := by
  rw [instances, h]
  rfl

theorem get?_store (c : InstanceCache) (service : String)
    (update : List ServiceInstance × List Change) :
    (c.store service update).1.services.get? service = some update.1 := by
  rw [store, Dictionary.get?_insert, if_pos rfl]

theorem get?_store_other (c : InstanceCache) {service s : String} (other : s ≠ service)
    (update : List ServiceInstance × List Change) :
    (c.store service update).1.services.get? s = c.services.get? s := by
  rw [store, Dictionary.get?_insert, if_neg other]

theorem contains_store {c : InstanceCache} {service : String} {l : List ServiceInstance}
    (known : c.services.get? service = some l) (update : List ServiceInstance × List Change)
    (s : String) :
    (c.store service update).1.services.contains s = c.services.contains s := by
  rw [Dictionary.contains, Dictionary.contains]
  by_cases same : s = service
  · rw [same, get?_store, known]
    rfl
  · rw [get?_store_other c same]

theorem instances_store (c : InstanceCache) (service s : String)
    (update : List ServiceInstance × List Change) :
    (c.store service update).1.instances s = if s = service then update.1 else c.instances s := by
  simp only [store, instances, Dictionary.get?_insert]
  split <;> rfl

theorem amend_of_unknown {c : InstanceCache} {service : String}
    (h : c.services.get? service = none)
    (f : List ServiceInstance → List ServiceInstance × List Change) :
    c.amend service f = (c, []) := by
  rw [amend, h]

theorem amend_of_known {c : InstanceCache} {service : String} {l : List ServiceInstance}
    (h : c.services.get? service = some l)
    (f : List ServiceInstance → List ServiceInstance × List Change) :
    c.amend service f = c.store service (f l) := by
  rw [amend, h]

/-- The lists of a cache are revised, and the handlers hear it. -/
def Revised (c : InstanceCache) (r : InstanceCache × List HandlerCall) : Prop :=
  ∀ s, ∃ cs, Revisions (c.instances s) cs (r.1.instances s) ∧
    ∀ handler, c.Hears s handler → heard handler r.2 = cs

theorem Revised.unchanged (c : InstanceCache) : c.Revised (c, []) :=
  fun _ => ⟨[], .none _, fun _ _ => rfl⟩

theorem revised_store {c : InstanceCache} {service : String}
    {update : List ServiceInstance × List Change}
    (h : Revisions (c.instances service) update.2 update.1) :
    c.Revised (c.store service update) := by
  intro s
  rw [instances_store]
  by_cases same : s = service
  · subst same
    rw [if_pos rfl]
    exact ⟨update.2, h, fun handler hears => hears.heard_calls_self update.2⟩
  · rw [if_neg same]
    exact ⟨[], .none _, fun handler hears =>
      hears.heard_calls_other (fun e => same e.symm) update.2⟩

theorem revised_amend {c : InstanceCache} {service : String}
    {f : List ServiceInstance → List ServiceInstance × List Change}
    (h : ∀ l, Revisions l (f l).2 (f l).1) : c.Revised (c.amend service f) := by
  unfold amend
  cases known : c.services.get? service with
  | none => exact .unchanged c
  | some l =>
    exact revised_store (instances_of_known known ▸ h l)

theorem revised_perform (c : InstanceCache) {o : Operation} (h : o ≠ .clear) :
    c.Revised (c.perform o) := by
  cases o with
  | apply n =>
    cases n with
    | registered i => exact revised_store (revision_upsert _ _).once
    | updated i => exact revised_store (revision_upsert _ _).once
    | unregistered service id => exact revised_amend fun l => revisions_remove l _
    | heartbeat service id status timestampMs =>
      exact revised_amend fun l => revisions_beat l _ status timestampMs
  | updateService service instances => exact revised_store (revisions_replaceAll _ _)
  | clear => exact absurd rfl h
  | addHandler service label => exact .unchanged c
  | removeHandlers service => exact .unchanged c

/-- What holds of empty lists and is kept by revisions holds of every list of a cache. -/
theorem Reachable.invariant {P : List ServiceInstance → Prop} {c : InstanceCache} (h : Reachable c)
    (start : P []) (kept : ∀ {l m cs}, Revision l cs m → P l → P m) (s : String) :
    P (c.instances s) := by
  induction h with
  | start => exact start
  | @step c o h ih =>
    by_cases clears : o = .clear
    · subst clears
      exact start
    · obtain ⟨cs, revisions, -⟩ := c.revised_perform clears s
      exact revisions.invariant kept ih

theorem Reachable.distinct {c : InstanceCache} (h : Reachable c) (s : String) :
    (ids (c.instances s)).Nodup :=
  h.invariant (P := fun l => (ids l).Nodup) List.nodup_nil (fun r => r.nodup) s

def Operation.Keeps (service handler : String) : Operation → Prop
  | .addHandler _ label => label ≠ handler
  | .removeHandlers s => s ≠ service
  | _ => True

theorem handlers_amend (c : InstanceCache) (service : String)
    (f : List ServiceInstance → List ServiceInstance × List Change) :
    (c.amend service f).1.handlers = c.handlers := by
  unfold amend
  split <;> rfl

theorem handlers_apply (c : InstanceCache) (n : Notification) :
    (c.apply n).1.handlers = c.handlers := by
  cases n with
  | registered i => rfl
  | updated i => rfl
  | unregistered service id => exact handlers_amend c service _
  | heartbeat service id status timestampMs => exact handlers_amend c service _

theorem handlersOf_addHandler (c : InstanceCache) (service label s : String) :
    (c.addHandler service label).handlersOf s =
      c.handlersOf s ++ if s = service then [label] else [] := by
  simp only [handlersOf, addHandler, Dictionary.get?_insert]
  split
  · rename_i same
    rw [same]
    rfl
  · exact (List.append_nil _).symm

theorem handlersOf_removeHandlers (c : InstanceCache) (service s : String) :
    (c.removeHandlers service).handlersOf s = if s = service then [] else c.handlersOf s := by
  simp only [handlersOf, removeHandlers, Dictionary.get?_erase]
  split <;> rfl

theorem Hears.congr {c d : InstanceCache} {service handler : String}
    (h : c.Hears service handler) (same : d.handlers = c.handlers) : d.Hears service handler := by
  have equal (s : String) : d.handlersOf s = c.handlersOf s := by rw [handlersOf, same]; rfl
  exact ⟨equal service ▸ h.once, fun s other => equal s ▸ h.alone s other⟩

theorem Hears.perform {c : InstanceCache} {service handler : String} {o : Operation}
    (h : c.Hears service handler) (keeps : o.Keeps service handler) :
    (c.perform o).1.Hears service handler := by
  cases o with
  | apply n => exact h.congr (handlers_apply c n)
  | updateService s instances => exact h.congr rfl
  | clear => exact h.congr rfl
  | addHandler s label =>
    have other : label ≠ handler := keeps
    constructor
    · change ((c.addHandler s label).handlersOf service).count handler = 1
      rw [handlersOf_addHandler, List.count_append, h.once]
      split <;> simp [other]
    · intro t apart
      change handler ∉ (c.addHandler s label).handlersOf t
      rw [handlersOf_addHandler, List.mem_append, not_or]
      refine ⟨h.alone t apart, ?_⟩
      split <;> simp [Ne.symm other]
  | removeHandlers s =>
    have other : s ≠ service := keeps
    constructor
    · change ((c.removeHandlers s).handlersOf service).count handler = 1
      rw [handlersOf_removeHandlers, if_neg fun e => other e.symm]
      exact h.once
    · intro t apart
      change handler ∉ (c.removeHandlers s).handlersOf t
      rw [handlersOf_removeHandlers]
      split
      · exact List.not_mem_nil
      · exact h.alone t apart

end ServiceDirectory.InstanceCache
