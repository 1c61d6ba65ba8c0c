import ServiceDirectory.Proofs.Cache.Runs

/-! What a heartbeat does. It is meant for one instance of its service or for none, and apart from
the status and the time of the last heartbeat of that instance it leaves everything as it is. The
handlers are told once if the status differs. -/
namespace ServiceDirectory.InstanceCache

/-- The instance that is meant by a name: the one with this id or, if nobody has it, the only one
with the address that the name leads to. -/
def Targeted (l : List ServiceInstance) (name : String) (i : ServiceInstance) : Prop :=
  if name ∈ ids l then i.providerId = name
  else l.countP (·.providerAddress == (ProviderIdentity.ofName name).address) = 1 ∧
    i.providerAddress = (ProviderIdentity.ofName name).address

instance (l : List ServiceInstance) (name : String) : DecidablePred (Targeted l name) := fun i =>
  inferInstanceAs (Decidable (if name ∈ ids l then i.providerId = name else _ ∧ _))

section

variable {l front back : List ServiceInstance} {old : ServiceInstance} {name : String}

theorem targeted_of_mem (known : name ∈ ids l) (i : ServiceInstance) :
    Targeted l name i ↔ i.providerId = name := by
  rw [Targeted, if_pos known]

theorem targeted_of_not_mem (unknown : name ∉ ids l) (i : ServiceInstance) :
    Targeted l name i ↔
      l.countP (sharesAddress (ProviderIdentity.ofName name)) = 1 ∧
        sharesAddress (ProviderIdentity.ofName name) i = true := by
  rw [Targeted, if_neg unknown, sharesAddress, beq_iff_eq]
  rfl

theorem not_targeted_others (distinct : (ids (front ++ old :: back)).Nodup)
    (meant : Targeted (front ++ old :: back) name old) :
    ∀ i ∈ front ++ back, ¬Targeted (front ++ old :: back) name i := by
  intro i hi
  by_cases known : name ∈ ids (front ++ old :: back)
  · rw [targeted_of_mem known] at meant ⊢
    intro same
    exact not_mem_ids_others distinct (meant ▸ same ▸ mem_ids hi)
  · rw [targeted_of_not_mem known] at meant ⊢
    rintro ⟨-, shares⟩
    have one := meant.1
    rw [List.perm_middle.countP_eq, List.countP_cons_of_pos meant.2] at one
    exact List.countP_eq_zero.mp (Nat.succ.inj one) i hi shares

theorem find?_of_targeted (distinct : (ids (front ++ old :: back)).Nodup)
    (meant : Targeted (front ++ old :: back) name old) :
    find? (front ++ old :: back) (ProviderIdentity.ofName name) = some front.length := by
  have others (i : ServiceInstance) (hi : i ∈ front) :=
    not_targeted_others distinct meant i (List.mem_append_left back hi)
  by_cases known : name ∈ ids (front ++ old :: back)
  · simp only [targeted_of_mem known] at meant others
    have place := findIdx?_of_split (p := (·.providerId == name)) back (beq_iff_eq.mpr meant)
      fun i hi => beq_eq_false_iff_ne.mpr (others i hi)
    rw [find?, ProviderIdentity.id_ofName, place]
  · simp only [targeted_of_not_mem known] at meant others
    have place := findIdx?_of_split back meant.2 fun i hi =>
      Bool.eq_false_iff.mpr fun shares => others i hi ⟨meant.1, shares⟩
    have unknown : (ProviderIdentity.ofName name).id ∉ ids (front ++ old :: back) :=
      (ProviderIdentity.id_ofName name).symm ▸ known
    rw [find?, findIdx?_id_eq_none unknown]
    exact (if_pos meant.1).trans place

theorem find?_of_not_targeted (nobody : ∀ i ∈ l, ¬Targeted l name i) :
    find? l (ProviderIdentity.ofName name) = none := by
  have meant := meant_find? (ProviderIdentity.ofName name) l
  cases place : find? l (ProviderIdentity.ofName name) with
  | none => rfl
  | some n =>
    rw [place] at meant
    cases meant with
    | @byId front i back same =>
      rw [ProviderIdentity.id_ofName] at same
      have known : name ∈ ids (front ++ i :: back) := same ▸ mem_ids (by simp)
      exact absurd ((targeted_of_mem known i).mpr same) (nobody i (by simp))
    | @byAddress front i back unknown shares alone =>
      rw [ProviderIdentity.id_ofName] at unknown
      exact absurd ((targeted_of_not_mem unknown i).mpr
        ⟨countP_eq_one_of_alone shares alone, shares⟩) (nobody i (by simp))

end

variable {c : InstanceCache} {service name : String}

theorem apply_heartbeat_of_not_targeted (status : OperationalStatus) (timestampMs : UInt64)
    (nobody : ∀ i ∈ c.instances service, ¬Targeted (c.instances service) name i) :
    c.apply (.heartbeat service name status timestampMs) = (c, []) := by
  change c.amend service _ = (c, [])
  cases known : c.services.get? service with
  | none => exact amend_of_unknown known _
  | some l =>
    rw [instances_of_known known] at nobody
    rw [amend_of_known known, beat_of_none (find?_of_not_targeted nobody),
      store, Dictionary.insert_eq_self known]
    rfl

theorem apply_heartbeat_of_targeted (status : OperationalStatus) (timestampMs : UInt64)
    {front back : List ServiceInstance} {old : ServiceInstance}
    (list : c.services.get? service = some (front ++ old :: back))
    (distinct : (ids (front ++ old :: back)).Nodup)
    (meant : Targeted (front ++ old :: back) name old) :
    c.apply (.heartbeat service name status timestampMs) =
      c.store service (front ++ beaten status timestampMs old :: back,
        changesBetween old (beaten status timestampMs old)) := by
  change c.amend service _ = _
  rw [amend_of_known list, beat_of_split (find?_of_targeted distinct meant)]

theorem get?_services_of_mem {i : ServiceInstance} (h : i ∈ c.instances service) :
    c.services.get? service = some (c.instances service) := by
  cases known : c.services.get? service with
  | none =>
    rw [instances_of_unknown known] at h
    cases h
  | some l => rw [instances_of_known known]

theorem calls_changesBetween_beaten (c : InstanceCache) (service : String) (old : ServiceInstance)
    (status : OperationalStatus) (timestampMs : UInt64) :
    c.calls service (changesBetween old (beaten status timestampMs old)) =
      if old.status = status then [] else
        (c.handlersOf service).map
          (⟨·, if status.isUp then .available (beaten status timestampMs old)
            else .unavailable (beaten status timestampMs old)⟩) := by
  have single (change : Change) :
      c.calls service [change] = (c.handlersOf service).map (⟨·, change⟩) :=
    List.append_nil _
  rw [changesBetween_beaten]
  split
  · rfl
  · split
    · exact single _
    · exact single _

/-- A heartbeat is meant for the instance with the id that it names; if there is none, for the only
one with the address that the name leads to; and otherwise for nobody. If it is meant for nobody,
nothing changes at all and no handler is called. If it is meant for an instance, for that one alone,
then this instance gets the status and the time of the heartbeat, and all else stays as it is; and
if the status was another one, each handler of the service is called once, with the availability
that the instance has now. -/
theorem Reachable.apply_heartbeat (h : Reachable c) (service name : String)
    (status : OperationalStatus) (timestampMs : UInt64) :
    let l := c.instances service
    let after := c.apply (.heartbeat service name status timestampMs)
    ((∀ i ∈ l, ¬Targeted l name i) → after = (c, [])) ∧
    ∀ front old back, l = front ++ old :: back → Targeted l name old →
      let new := { old with status, lastHeartbeatMs := some timestampMs }
      (∀ i ∈ front ++ back, ¬Targeted l name i) ∧
      after.1 = { c with services := c.services.insert service (front ++ new :: back) } ∧
      (∀ s, after.1.services.contains s = c.services.contains s) ∧
      (∀ s, s ≠ service → after.1.services.get? s = c.services.get? s) ∧
      after.2 = if old.status = status then [] else
        (c.handlersOf service).map
          (⟨·, if status.isUp then .available new else .unavailable new⟩) := by
  intro l after
  refine ⟨apply_heartbeat_of_not_targeted status timestampMs, fun front old back split meant => ?_⟩
  intro new
  have mem : old ∈ c.instances service :=
    (show c.instances service = _ from split) ▸ List.mem_append_right front List.mem_cons_self
  have known : c.services.get? service = some (front ++ old :: back) :=
    split ▸ get?_services_of_mem mem
  have distinct : (ids (front ++ old :: back)).Nodup := split ▸ h.distinct service
  rw [split] at meant ⊢
  have taken : after = c.store service (front ++ new :: back, changesBetween old new) :=
    apply_heartbeat_of_targeted status timestampMs known distinct meant
  rw [taken]
  exact ⟨not_targeted_others distinct meant, rfl, contains_store known _,
    fun s other => c.get?_store_other other _, c.calls_changesBetween_beaten service old status _⟩

def sharing : InstanceCache :=
  run {} [.addHandler "billing" "screen", .addHandler "billing" "log",
    .apply (.registered (.withProviderId (.new "billing" "10.0.0.1" "http://a") "10.0.0.1-80")),
    .apply (.registered (.withProviderId (.new "billing" "10.0.0.1" "http://b") "10.0.0.1-81")),
    .apply (.registered (.withProviderId (.new "billing" "10.0.0.2" "http://c") "10.0.0.2-80"))]

/-- The shared address means nobody. Another port at the third address means the third provider,
and both handlers hear that it is down. -/
theorem apply_heartbeat_sharing :
    Reachable sharing ∧
    sharing.apply (.heartbeat "billing" "10.0.0.1" .down 5) = (sharing, []) ∧
    let third := (ServiceInstance.new "billing" "10.0.0.2" "http://c").withProviderId "10.0.0.2-80"
    let down := { third with status := .down, lastHeartbeatMs := some 5 }
    (sharing.apply (.heartbeat "billing" "10.0.0.2-443" .down 5)).2 =
      [⟨"screen", .unavailable down⟩, ⟨"log", .unavailable down⟩] := by
  have reached : Reachable sharing := Reachable.start.run _
  obtain ⟨nobody, -⟩ := reached.apply_heartbeat "billing" "10.0.0.1" .down 5
  obtain ⟨-, meant⟩ := reached.apply_heartbeat "billing" "10.0.0.2-443" .down 5
  refine ⟨reached, nobody (by decide +kernel), ?_⟩
  intro third down
  have list : sharing.instances "billing" =
      [.withProviderId (.new "billing" "10.0.0.1" "http://a") "10.0.0.1-80",
        .withProviderId (.new "billing" "10.0.0.1" "http://b") "10.0.0.1-81"] ++ third :: [] := by
    decide +kernel
  exact (meant _ third _ list (by decide +kernel)).2.2.2.2

end ServiceDirectory.InstanceCache
