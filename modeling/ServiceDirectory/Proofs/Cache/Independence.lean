import Mathlib.Data.List.Perm.Basic
import ServiceDirectory.Proofs.Cache.Runs

/-! The services of a cache do not know of each other. An operation reads and writes the list and
the handlers of the service that it names, and calls these handlers only. So for one service the
operations on others might as well not be there. Only `clear` concerns all services. -/
namespace ServiceDirectory.InstanceCache

def Operation.service? : Operation → Option String
  | .apply n => some n.serviceName
  | .updateService service _ => some service
  | .clear => none
  | .addHandler service _ => some service
  | .removeHandlers service => some service

def Operation.concerns (service : String) (o : Operation) : Bool :=
  o.service?.all (· == service)

theorem Operation.concerns_of_named {o : Operation} {service s : String}
    (named : o.service? = some s) : o.concerns service = (s == service) := by
  rw [concerns, named, Option.all_some]

theorem Operation.names_other {o : Operation} {service : String}
    (h : ¬o.concerns service = true) : ∃ s, o.service? = some s ∧ service ≠ s := by
  cases named : o.service? with
  | none => exact absurd (by rw [concerns, named]; rfl) h
  | some s =>
    rw [concerns_of_named named, beq_iff_eq] at h
    exact ⟨s, rfl, Ne.symm h⟩

def told (c : InstanceCache) : List Operation → List HandlerCall
  | [] => []
  | o :: os => (c.perform o).2 ++ (c.perform o).1.told os

/-- The calls of those operations in a row that concern a service. -/
def toldFor (service : String) (c : InstanceCache) : List Operation → List HandlerCall
  | [] => []
  | o :: os =>
    (if o.concerns service then (c.perform o).2 else []) ++ toldFor service (c.perform o).1 os

/-- The same is known of a service, and the same handlers hear of it. -/
structure Alike (service : String) (c d : InstanceCache) : Prop where
  services : c.services.get? service = d.services.get? service
  handlers : c.handlers.get? service = d.handlers.get? service

namespace Alike

variable {service s : String} {c d : InstanceCache}

theorem refl (service : String) (c : InstanceCache) : Alike service c c := ⟨rfl, rfl⟩

theorem instances_eq (h : Alike service c d) : c.instances service = d.instances service :=
  congrArg (·.getD []) h.services

theorem calls_eq (h : Alike service c d) (changes : List Change) :
    c.calls service changes = d.calls service changes := by
  rw [calls, calls, h.handlers]

theorem store (h : Alike service c d) (update : List ServiceInstance × List Change) :
    Alike service (c.store service update).1 (d.store service update).1 ∧
      (c.store service update).2 = (d.store service update).2 :=
  ⟨⟨by rw [get?_store, get?_store], h.handlers⟩, h.calls_eq update.2⟩

theorem amend (h : Alike service c d)
    (f : List ServiceInstance → List ServiceInstance × List Change) :
    Alike service (c.amend service f).1 (d.amend service f).1 ∧
      (c.amend service f).2 = (d.amend service f).2 := by
  cases known : d.services.get? service with
  | none =>
    rw [amend_of_unknown known, amend_of_unknown (h.services.trans known)]
    exact ⟨h, rfl⟩
  | some l =>
    rw [amend_of_known known, amend_of_known (h.services.trans known)]
    exact h.store (f l)

theorem perform (h : Alike service c d) {o : Operation} (mine : o.concerns service = true) :
    Alike service (c.perform o).1 (d.perform o).1 ∧ (c.perform o).2 = (d.perform o).2 := by
  cases o with
  | apply n =>
    obtain rfl : n.serviceName = service := beq_iff_eq.mp mine
    cases n with
    | registered i | updated i =>
      have same : c.instances i.serviceName = d.instances i.serviceName := h.instances_eq
      simp only [InstanceCache.perform, apply, same]
      exact h.store _
    | unregistered | heartbeat => exact h.amend _
  | updateService s instances =>
    obtain rfl : s = service := beq_iff_eq.mp mine
    simp only [InstanceCache.perform, updateService, h.instances_eq]
    exact h.store _
  | clear => exact ⟨⟨rfl, h.handlers⟩, rfl⟩
  | addHandler s label =>
    obtain rfl : s = service := beq_iff_eq.mp mine
    refine ⟨⟨h.services, ?_⟩, rfl⟩
    simp only [InstanceCache.perform, addHandler, Dictionary.get?_insert, if_pos, h.handlers]
  | removeHandlers s =>
    refine ⟨⟨h.services, ?_⟩, rfl⟩
    simp only [InstanceCache.perform, removeHandlers, Dictionary.get?_erase, h.handlers]

theorem store_other (h : Alike service c d) (other : service ≠ s)
    (update : List ServiceInstance × List Change) : Alike service (c.store s update).1 d :=
  ⟨(get?_store_other c other update).trans h.services, h.handlers⟩

theorem amend_other (h : Alike service c d) (other : service ≠ s)
    (f : List ServiceInstance → List ServiceInstance × List Change) :
    Alike service (c.amend s f).1 d := by
  cases known : c.services.get? s with
  | none =>
    rw [amend_of_unknown known]
    exact h
  | some l =>
    rw [amend_of_known known]
    exact h.store_other other (f l)

theorem perform_other (h : Alike service c d) {o : Operation} (named : o.service? = some s)
    (other : service ≠ s) : Alike service (c.perform o).1 d := by
  cases o with
  | apply n =>
    obtain rfl : n.serviceName = s := Option.some.inj named
    cases n with
    | registered | updated => exact h.store_other other _
    | unregistered | heartbeat => exact h.amend_other other _
  | updateService t instances =>
    obtain rfl : t = s := Option.some.inj named
    exact h.store_other other _
  | clear => cases named
  | addHandler t label =>
    obtain rfl : t = s := Option.some.inj named
    refine ⟨h.services, ?_⟩
    rw [InstanceCache.perform, addHandler, Dictionary.get?_insert, if_neg other]
    exact h.handlers
  | removeHandlers t =>
    obtain rfl : t = s := Option.some.inj named
    refine ⟨h.services, ?_⟩
    rw [InstanceCache.perform, removeHandlers, Dictionary.get?_erase, if_neg other]
    exact h.handlers

/-- Without the operations on other services the outcome is the same, and what is left of the calls
is what is made for this one. -/
theorem run (h : Alike service c d) (os : List Operation) :
    Alike service (c.run os) (d.run (os.filter (·.concerns service))) ∧
      toldFor service c os = d.told (os.filter (·.concerns service)) := by
  induction os generalizing c d with
  | nil => exact ⟨h, rfl⟩
  | cons o os ih =>
    by_cases mine : o.concerns service = true
    · obtain ⟨next, same⟩ := h.perform mine
      obtain ⟨after, rest⟩ := ih next
      rw [List.filter_cons_of_pos mine, toldFor, if_pos mine, same, rest]
      exact ⟨after, rfl⟩
    · obtain ⟨s, named, other⟩ := Operation.names_other mine
      obtain ⟨after, rest⟩ := ih (h.perform_other named other)
      rw [List.filter_cons_of_neg mine, toldFor, if_neg mine, rest]
      exact ⟨after, rfl⟩

end Alike

theorem named_of_mem_perform {c : InstanceCache} {o : Operation} {call : HandlerCall}
    (h : call ∈ (c.perform o).2) :
    ∃ s, o.service? = some s ∧ call.handler ∈ c.handlersOf s := by
  have stored {s : String} {update : List ServiceInstance × List Change}
      (mem : call ∈ (c.store s update).2) : call.handler ∈ c.handlersOf s := by
    obtain ⟨change, -, made⟩ := List.mem_flatMap.mp mem
    obtain ⟨label, registered, rfl⟩ := List.mem_map.mp made
    exact registered
  have amended {s : String} {f : List ServiceInstance → List ServiceInstance × List Change}
      (mem : call ∈ (c.amend s f).2) : call.handler ∈ c.handlersOf s := by
    cases known : c.services.get? s with
    | none =>
      rw [amend_of_unknown known] at mem
      cases mem
    | some l =>
      rw [amend_of_known known] at mem
      exact stored mem
  cases o with
  | apply n =>
    cases n with
    | registered | updated => exact ⟨_, rfl, stored h⟩
    | unregistered | heartbeat => exact ⟨_, rfl, amended h⟩
  | updateService s instances => exact ⟨s, rfl, stored h⟩
  | clear | addHandler | removeHandlers => cases h

/-- Handlers belong to a service when they are registered for it, before or meanwhile, and for no
other. -/
structure Belong (service : String) (mine : String → Bool) (c : InstanceCache)
    (os : List Operation) : Prop where
  before : ∀ s, ∀ label ∈ c.handlersOf s, mine label = (s == service)
  meanwhile : ∀ s label, .addHandler s label ∈ os → mine label = (s == service)

theorem Belong.tail {service : String} {mine : String → Bool} {c : InstanceCache} {o : Operation}
    {os : List Operation} (h : Belong service mine c (o :: os)) :
    Belong service mine (c.perform o).1 os := by
  refine ⟨fun s label hl => ?_, fun s label hl => h.meanwhile s label (List.mem_cons_of_mem o hl)⟩
  cases o with
  | apply n =>
    rw [handlersOf, perform, handlers_apply] at hl
    exact h.before s label hl
  | updateService | clear => exact h.before s label hl
  | addHandler t new =>
    rw [perform, handlersOf_addHandler, List.mem_append, List.mem_ite_nil_right,
      List.mem_singleton] at hl
    rcases hl with old | ⟨rfl, rfl⟩
    · exact h.before s label old
    · exact h.meanwhile s label List.mem_cons_self
  | removeHandlers t =>
    rw [perform, handlersOf_removeHandlers] at hl
    split at hl
    · cases hl
    · exact h.before s label hl

theorem filter_told {service : String} {mine : String → Bool} {c : InstanceCache}
    {os : List Operation} (h : Belong service mine c os) :
    (c.told os).filter (mine ·.handler) = toldFor service c os := by
  induction os generalizing c with
  | nil => rfl
  | cons o os ih =>
    rw [told, toldFor, List.filter_append, ih h.tail]
    congr 1
    split
    · rename_i concerns
      refine List.filter_eq_self.mpr fun call hc => ?_
      obtain ⟨s, named, registered⟩ := named_of_mem_perform hc
      rw [h.before s _ registered, ← Operation.concerns_of_named named, concerns]
    · rename_i other
      refine List.filter_eq_nil_iff.mpr fun call hc => ?_
      obtain ⟨s, named, registered⟩ := named_of_mem_perform hc
      rw [h.before s _ registered, ← Operation.concerns_of_named named]
      exact other

/-- Rows of operations that differ in the order of operations on different services. Nothing is
moved across `clear`. -/
inductive Reordered : List Operation → List Operation → Prop
  | same (os : List Operation) : Reordered os os
  | swap (front : List Operation) {o p : Operation} (back : List Operation) {s t : String}
      (first : o.service? = some s) (second : p.service? = some t) (other : s ≠ t) :
      Reordered (front ++ o :: p :: back) (front ++ p :: o :: back)
  | trans {os ps qs : List Operation} : Reordered os ps → Reordered ps qs → Reordered os qs

theorem Reordered.filter_concerns {os ps : List Operation} (h : Reordered os ps)
    (service : String) : os.filter (·.concerns service) = ps.filter (·.concerns service) := by
  induction h with
  | same os => rfl
  | @swap front o p back s t first second other =>
    -- One of the two does not concern the service.
    rw [List.filter_append, List.filter_append]
    congr 1
    by_cases mine : s = service
    · have dropped : ¬p.concerns service = true := by
        rw [Operation.concerns_of_named second, beq_iff_eq]
        exact fun e => other (mine.trans e.symm)
      rw [List.filter_cons (x := o), List.filter_cons_of_neg dropped,
        List.filter_cons_of_neg dropped, List.filter_cons]
    · have dropped : ¬o.concerns service = true := by
        rw [Operation.concerns_of_named first, beq_iff_eq]
        exact mine
      rw [List.filter_cons_of_neg dropped, List.filter_cons, List.filter_cons,
        List.filter_cons_of_neg dropped]
  | trans _ _ ih more => exact ih.trans more

theorem Reordered.mem_iff {os ps : List Operation} (h : Reordered os ps) (o : Operation) :
    o ∈ os ↔ o ∈ ps := by
  induction h with
  | same os => rfl
  | swap front back => exact ((List.Perm.swap _ _ back).append_left front).mem_iff
  | trans _ _ ih more => exact ih.trans more

/-- For one service the operations on others might as well not be there: its list, and the calls for
it one after the other, are those of a run without them. Handlers that belong to this service hear
these calls and no others. So the order of operations on different services does not show in what is
known or heard of either. -/
theorem independent_of_others (c : InstanceCache) (os : List Operation) (service : String) :
    let only := os.filter (·.concerns service)
    ((c.run os).instances service = (c.run only).instances service ∧
      toldFor service c os = c.told only ∧
      ∀ mine, Belong service mine c os → (c.told os).filter (mine ·.handler) = c.told only) ∧
    ∀ ps, Reordered os ps → (c.run ps).instances service = (c.run os).instances service ∧
      toldFor service c ps = toldFor service c os ∧
      ∀ mine, Belong service mine c os →
        (c.told ps).filter (mine ·.handler) = (c.told os).filter (mine ·.handler) := by
  intro only
  obtain ⟨alike, calls⟩ := (Alike.refl service c).run os
  refine ⟨⟨alike.instances_eq, calls, fun mine belong => (filter_told belong).trans calls⟩,
    fun ps reordered => ?_⟩
  obtain ⟨alike', calls'⟩ := (Alike.refl service c).run ps
  rw [← reordered.filter_concerns] at alike' calls'
  refine ⟨alike'.instances_eq.trans alike.instances_eq.symm, calls'.trans calls.symm,
    fun mine belong => ?_⟩
  have still : Belong service mine c ps :=
    ⟨belong.before, fun s label h => belong.meanwhile s label ((reordered.mem_iff _).mpr h)⟩
  rw [filter_told belong, filter_told still, calls, calls']

/-- Two services have a provider at the same address; each is told about its own only, and the order
in which one comes and the other goes does not matter. -/
theorem independent_of_others_neighbours :
    let here : ServiceInstance := .new "billing" "10.0.0.1" "http://x"
    let front : List Operation := [.addHandler "billing" "screen", .addHandler "audit" "log",
      .apply (.registered here), .apply (.heartbeat "audit" "10.0.0.1" .down 5)]
    let comes : Operation := .apply (.registered (.new "audit" "10.0.0.1" "http://y"))
    let goes : Operation := .apply (.unregistered "billing" "10.0.0.1-80")
    let calls : List HandlerCall := [⟨"screen", .available here⟩, ⟨"screen", .unavailable here⟩]
    (told {} (front ++ [comes, goes])).filter (·.handler == "screen") = calls ∧
    (told {} (front ++ [goes, comes])).filter (·.handler == "screen") = calls ∧
    (run {} (front ++ [goes, comes])).instances "billing" = [] := by
  intro here front comes goes calls
  obtain ⟨⟨-, -, heard⟩, anyOrder⟩ := independent_of_others {} (front ++ [comes, goes]) "billing"
  have belong : Belong "billing" (· == "screen") {} (front ++ [comes, goes]) := by
    refine ⟨fun s label h => absurd h List.not_mem_nil, fun s label h => ?_⟩
    have listed : s = "billing" ∧ label = "screen" ∨ s = "audit" ∧ label = "log" := by
      simpa [front, comes, goes] using h
    obtain ⟨rfl, rfl⟩ | ⟨rfl, rfl⟩ := listed <;> decide
  have reordered : Reordered (front ++ [comes, goes]) (front ++ [goes, comes]) :=
    .swap front [] (s := "audit") (t := "billing") rfl rfl (by decide)
  obtain ⟨list, -, same⟩ := anyOrder _ reordered
  have first : (told {} (front ++ [comes, goes])).filter (·.handler == "screen") = calls := by
    rw [heard _ belong]
    decide +kernel
  have nothing : (run {} (front ++ [comes, goes])).instances "billing" = [] := by decide +kernel
  exact ⟨first, (same _ belong).trans first, list.trans nothing⟩

end ServiceDirectory.InstanceCache
