import ServiceDirectory.Proofs.Cache.Runs

/-! What the lists of a cache hold. Every instance of a list came by a registration, an update or a
whole list, and only its status and the time of its last heartbeat have changed since. So what is
true of all that comes in is true of all that is held. -/
namespace ServiceDirectory.InstanceCache

/-- A property of instances for which neither the status nor the last heartbeat counts. -/
def Steady (P : ServiceInstance → Prop) : Prop :=
  ∀ i status lastHeartbeatMs, P i → P { i with status, lastHeartbeatMs }

section Lists

variable {P : ServiceInstance → Prop} (steady : Steady P) {l : List ServiceInstance}
include steady

theorem forall_mem_upsert {i : ServiceInstance} (comes : P i) (h : ∀ j ∈ l, P j) :
    ∀ j ∈ (upsert l i).1, P j := by
  by_cases known : i.providerId ∈ ids l
  · obtain ⟨front, old, back, rfl, same, first⟩ := split_of_mem_ids known
    rw [upsert_of_split same first]
    rw [List.forall_mem_append, List.forall_mem_cons] at h ⊢
    exact ⟨h.1, steady i i.status _ comes, h.2.2⟩
  · rw [upsert_of_not_mem known]
    exact List.forall_mem_append.mpr ⟨h, List.forall_mem_singleton.mpr comes⟩

theorem forall_mem_beat (identity : ProviderIdentity) (status : OperationalStatus)
    (timestampMs : UInt64) (h : ∀ j ∈ l, P j) :
    ∀ j ∈ (beat l identity status timestampMs).1, P j := by
  cases place : find? l identity with
  | none =>
    rw [beat_of_none place]
    exact h
  | some n =>
    obtain ⟨front, old, back, rfl, rfl⟩ := split_of_find? place
    rw [beat_of_split place]
    rw [List.forall_mem_append, List.forall_mem_cons] at h ⊢
    exact ⟨h.1, steady old status _ h.2.1, h.2.2⟩

theorem forall_mem_putAll {instances : List ServiceInstance}
    (come : ∀ i ∈ instances, P (normalized i)) (h : ∀ j ∈ l, P j) :
    ∀ j ∈ putAll l instances, P j := by
  induction instances generalizing l with
  | nil => exact h
  | cons i instances ih =>
    rw [List.forall_mem_cons] at come
    exact ih come.2 (forall_mem_upsert steady come.1 h)

theorem forall_mem_replaceAll {instances : List ServiceInstance}
    (come : ∀ i ∈ instances, P (normalized i)) (h : ∀ j ∈ l, P j) :
    ∀ j ∈ (replaceAll l instances).1, P j := by
  rw [fst_replaceAll]
  exact forall_mem_putAll steady come fun j hj => h j (List.mem_filter.mp hj).1

end Lists

theorem forall_mem_remove {P : ServiceInstance → Prop} {l : List ServiceInstance}
    (identity : ProviderIdentity) (h : ∀ j ∈ l, P j) : ∀ j ∈ (remove l identity).1, P j := by
  cases place : find? l identity with
  | none =>
    rw [remove_of_none place]
    exact h
  | some n =>
    obtain ⟨front, i, back, rfl, rfl⟩ := split_of_find? place
    rw [remove_of_split place]
    rw [List.forall_mem_append, List.forall_mem_cons] at h
    exact List.forall_mem_append.mpr ⟨h.1, h.2.2⟩

/-- The instances, as they are reported, that an operation puts into the list of a service. -/
def Operation.brought (service : String) : Operation → List ServiceInstance
  | .apply (.registered i) | .apply (.updated i) => if i.serviceName = service then [i] else []
  | .updateService s instances => if s = service then instances else []
  | _ => []

section Runs

variable {P : ServiceInstance → Prop} {c : InstanceCache} {service : String}

theorem forall_mem_store {s : String} {update : List ServiceInstance × List Change}
    (mine : s = service → ∀ i ∈ update.1, P i) (h : ∀ i ∈ c.instances service, P i) :
    ∀ i ∈ (c.store s update).1.instances service, P i := by
  rw [instances_store]
  split
  · rename_i same
    exact mine same.symm
  · exact h

theorem forall_mem_amend {s : String}
    {f : List ServiceInstance → List ServiceInstance × List Change}
    (kept : ∀ l, (∀ i ∈ l, P i) → ∀ i ∈ (f l).1, P i) (h : ∀ i ∈ c.instances service, P i) :
    ∀ i ∈ (c.amend s f).1.instances service, P i := by
  cases known : c.services.get? s with
  | none =>
    rw [amend_of_unknown known]
    exact h
  | some l =>
    rw [amend_of_known known]
    refine forall_mem_store (fun same => kept l ?_) h
    rw [← instances_of_known known, same]
    exact h

theorem forall_mem_perform (steady : Steady P) {o : Operation}
    (come : ∀ i ∈ o.brought service, P (normalized i)) (h : ∀ i ∈ c.instances service, P i) :
    ∀ i ∈ (c.perform o).1.instances service, P i := by
  -- A registration and an update put one instance in its place.
  have put {i : ServiceInstance} (come : ∀ j ∈ if i.serviceName = service then [i] else [],
      P (normalized j)) : ∀ j ∈ (c.store i.serviceName
        (upsert (c.instances i.serviceName) (normalized i))).1.instances service, P j := by
    refine forall_mem_store (fun same => ?_) h
    rw [if_pos same] at come
    exact forall_mem_upsert steady (come i (List.mem_singleton_self i)) (same ▸ h)
  cases o with
  | apply n =>
    cases n with
    | registered i => exact put come
    | updated i => exact put come
    | unregistered s id => exact forall_mem_amend (fun l => forall_mem_remove _) h
    | heartbeat s id status timestampMs =>
      exact forall_mem_amend (fun l => forall_mem_beat steady _ status timestampMs) h
  | updateService s instances =>
    refine forall_mem_store (fun same => ?_) h
    rw [Operation.brought, if_pos same] at come
    exact forall_mem_replaceAll steady come (same ▸ h)
  | clear => exact fun i hi => absurd hi List.not_mem_nil
  | addHandler s label => exact h
  | removeHandlers s => exact h

theorem forall_mem_run (steady : Steady P) {os : List Operation}
    (come : ∀ o ∈ os, ∀ i ∈ o.brought service, P (normalized i))
    (h : ∀ i ∈ c.instances service, P i) : ∀ i ∈ (c.run os).instances service, P i := by
  induction os generalizing c with
  | nil => exact h
  | cons o os ih =>
    rw [List.forall_mem_cons] at come
    exact ih come.2 (forall_mem_perform steady come.1 h)

end Runs

def Addressed (i : ServiceInstance) : Prop :=
  i.providerAddress = (ProviderIdentity.ofName i.providerId).address

theorem addressed_normalized (i : ServiceInstance) : Addressed (normalized i) := rfl

/-- Whatever is done to a new cache, in the list of each service the ids are distinct and each
address is the one that the id leads to, whatever address was reported. If every whole list for the
service names this service only, then so does every instance of its list. -/
theorem contents_of_run (os : List Operation) (service : String) :
    (ids ((run {} os).instances service)).Nodup ∧
    (∀ i ∈ (run {} os).instances service,
      i.providerAddress = (ProviderIdentity.ofName i.providerId).address) ∧
    ((∀ instances, .updateService service instances ∈ os →
        ∀ i ∈ instances, i.serviceName = service) →
      ∀ i ∈ (run {} os).instances service, i.serviceName = service) := by
  have empty : ∀ {P : ServiceInstance → Prop}, ∀ i ∈ instances {} service, P i :=
    fun i hi => absurd hi List.not_mem_nil
  refine ⟨(Reachable.start.run os).distinct service,
    forall_mem_run (P := Addressed) (fun _ _ _ h => h) (fun _ _ i _ => addressed_normalized i)
      empty,
    fun own => forall_mem_run (P := (·.serviceName = service)) (fun _ _ _ h => h) ?_ empty⟩
  intro o ho i hi
  cases o with
  | apply n =>
    cases n with
    | registered j | updated j =>
      rw [Operation.brought, List.mem_ite_nil_right, List.mem_singleton] at hi
      exact hi.2 ▸ hi.1
    | unregistered | heartbeat => cases hi
  | updateService s instances =>
    rw [Operation.brought, List.mem_ite_nil_right] at hi
    obtain ⟨rfl, listed⟩ := hi
    exact own instances ho i listed
  | clear | addHandler | removeHandlers => cases hi

/-- A provider of the older form is reported with an address that is not its own, and a list names
it and another one twice. A list for another service that holds an instance of this one is no
matter. -/
theorem contents_of_run_repeated :
    let older := (ServiceInstance.new "billing" "10.0.0.9" "http://a").withProviderId "10.0.0.1-80"
    let os : List Operation := [.apply (.registered older),
      .apply (.heartbeat "billing" "10.0.0.1" .down 5),
      .updateService "billing" [.new "billing" "10.0.0.2" "http://b", older,
        .new "billing" "10.0.0.2" "http://c", { older with uri := "http://d" }],
      .updateService "audit" [older]]
    let l := (run {} os).instances "billing"
    ids l = ["10.0.0.1-80", "10.0.0.2"] ∧ (ids l).Nodup ∧
    (∀ i ∈ l, i.providerAddress = (ProviderIdentity.ofName i.providerId).address) ∧
    ∀ i ∈ l, i.serviceName = "billing" := by
  intro older os l
  obtain ⟨distinct, addressed, named⟩ := contents_of_run os "billing"
  have own : ∀ instances, .updateService "billing" instances ∈ os →
      ∀ i ∈ instances, i.serviceName = "billing" := by
    intro instances listed
    have only : instances = [.new "billing" "10.0.0.2" "http://b", older,
        .new "billing" "10.0.0.2" "http://c", { older with uri := "http://d" }] := by
      simpa [os] using listed
    rw [only]
    decide
  have known : ids l = ["10.0.0.1-80", "10.0.0.2"] := by decide +kernel
  exact ⟨known, distinct, addressed, named own⟩

end ServiceDirectory.InstanceCache
