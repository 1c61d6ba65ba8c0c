import ServiceDirectory.Proofs.Cache.Runs

/-! Notifications that are taken in twice in a row. A registration, an update or a heartbeat does
nothing the second time. The end of a registration may: once the instance with the id is gone, the
id means whoever is alone at its address. -/
namespace ServiceDirectory.InstanceCache

theorem changesBetween_self (i : ServiceInstance) : changesBetween i i = [] := by
  unfold changesBetween
  cases i.isUp <;> simp

theorem inherit_self (i : ServiceInstance) : inherit i i = i := by
  cases i
  simp [inherit]

theorem inherit_inherit (old i : ServiceInstance) : inherit (inherit old i) i = inherit old i := by
  cases taken : i.lastHeartbeatMs <;> simp [inherit, taken]

theorem upsert_of_present {front back : List ServiceInstance} {old i : ServiceInstance}
    (same : old.providerId = i.providerId) (first : i.providerId ∉ ids front)
    (still : inherit old i = old) :
    upsert (front ++ old :: back) i = (front ++ old :: back, []) := by
  rw [upsert_of_split same first, still, changesBetween_self]

theorem upsert_again (l : List ServiceInstance) (i : ServiceInstance) :
    upsert (upsert l i).1 i = ((upsert l i).1, []) := by
  by_cases known : i.providerId ∈ ids l
  · obtain ⟨front, old, back, rfl, same, first⟩ := split_of_mem_ids known
    rw [upsert_of_split same first]
    exact upsert_of_present rfl first (inherit_inherit old i)
  · rw [upsert_of_not_mem known]
    exact upsert_of_present rfl known (inherit_self i)

theorem find?_congr {l m : List ServiceInstance} (identity : ProviderIdentity)
    (h : l.map (fun i => (i.providerId, i.providerAddress)) =
      m.map fun i => (i.providerId, i.providerAddress)) : find? l identity = find? m identity := by
  have byId := congrArg (List.findIdx? fun names => names.1 == identity.id) h
  have byAddress := congrArg (List.findIdx? fun names => names.2 == identity.address) h
  have number := congrArg (List.countP fun names => names.2 == identity.address) h
  simp only [List.findIdx?_map, List.countP_map, Function.comp_def] at byId byAddress number
  rw [find?, find?, byId, byAddress, number]

theorem beat_again (l : List ServiceInstance) (identity : ProviderIdentity)
    (status : OperationalStatus) (timestampMs : UInt64) :
    beat (beat l identity status timestampMs).1 identity status timestampMs =
      ((beat l identity status timestampMs).1, []) := by
  cases place : find? l identity with
  | none => rw [beat_of_none place, beat_of_none place]
  | some n =>
    obtain ⟨front, old, back, rfl, rfl⟩ := split_of_find? place
    have place' : find? (front ++ beaten status timestampMs old :: back) identity =
        some front.length := by
      rw [← place]
      exact find?_congr identity (by simp [beaten])
    rw [beat_of_split place, beat_of_split place']
    exact congrArg (Prod.mk _) (changesBetween_self (beaten status timestampMs old))

/-- An instance has the id, and exactly one other has the address. -/
def Shadowed (identity : ProviderIdentity) (l : List ServiceInstance) : Prop :=
  identity.id ∈ ids l ∧
    l.countP (fun i => i.providerId != identity.id && sharesAddress identity i) = 1

theorem find?_eq_none_iff {identity : ProviderIdentity} {l : List ServiceInstance}
    (unknown : identity.id ∉ ids l) :
    find? l identity = none ↔ l.countP (sharesAddress identity) ≠ 1 := by
  have meant := meant_find? identity l
  cases place : find? l identity with
  | none =>
    rw [place] at meant
    cases meant with
    | nobody _ ambiguous => exact ⟨fun _ => ambiguous, fun _ => rfl⟩
  | some n =>
    rw [place] at meant
    cases meant with
    | byId front back same => exact absurd (same ▸ mem_ids (by simp)) unknown
    | @byAddress front i back _ shares alone =>
      have one : (front ++ i :: back).countP (sharesAddress identity) = 1 :=
        countP_eq_one_of_alone shares alone
      exact ⟨fun h => absurd h (by simp), fun h => absurd one h⟩

theorem find?_remove_eq_none_iff {l : List ServiceInstance} (identity : ProviderIdentity)
    (distinct : (ids l).Nodup) :
    find? (remove l identity).1 identity = none ↔ ¬Shadowed identity l := by
  have meant := meant_find? identity l
  cases place : find? l identity with
  | none =>
    rw [place] at meant
    cases meant with
    | nobody unknown =>
      rw [remove_of_none place, place]
      exact ⟨fun _ shadowed => unknown shadowed.1, fun _ => rfl⟩
  | some n =>
    rw [place] at meant
    cases meant with
    | @byId front i back same first =>
      have gone : identity.id ∉ ids (front ++ back) := same ▸ not_mem_ids_others distinct
      have others : (front ++ i :: back).countP
          (fun j => j.providerId != identity.id && sharesAddress identity j) =
          (front ++ back).countP (sharesAddress identity) := by
        rw [List.perm_middle.countP_eq, List.countP_cons, if_neg (by simp [same])]
        refine List.countP_congr fun j hj => ?_
        have other : j.providerId ≠ identity.id := fun e => gone (e ▸ mem_ids hj)
        simp [other]
      have known : identity.id ∈ ids (front ++ i :: back) := same ▸ mem_ids (by simp)
      rw [remove_of_split place, find?_eq_none_iff gone, ← others]
      exact ⟨fun h shadowed => h shadowed.2, fun h one => h ⟨known, one⟩⟩
    | @byAddress front i back unknown shares alone =>
      have gone : identity.id ∉ ids (front ++ back) := fun h => unknown (by
        rw [ids_append, List.mem_append] at h
        rw [ids_append, ids_cons, List.mem_append, List.mem_cons]
        exact h.imp_right .inr)
      have nobody : (front ++ back).countP (sharesAddress identity) = 0 :=
        List.countP_eq_zero.mpr fun j hj => by simp [alone j hj]
      rw [remove_of_split place, find?_eq_none_iff gone, nobody]
      exact ⟨fun _ shadowed => unknown shadowed.1, fun _ => by simp⟩

/-- A removal that is repeated takes the instance with the id first, and then the one that was
shadowed. -/
theorem exists_remove_again {l : List ServiceInstance} {identity : ProviderIdentity}
    (distinct : (ids l).Nodup) (shadowed : Shadowed identity l) :
    ∃ front i back, (remove l identity).1 = front ++ i :: back ∧ i ∈ l ∧
      i.providerId ≠ identity.id ∧ sharesAddress identity i = true ∧
      remove (remove l identity).1 identity = (front ++ back, departure i) := by
  have first := meant_find? identity l
  cases place : find? l identity with
  | none =>
    rw [place] at first
    cases first with
    | nobody unknown => exact absurd shadowed.1 unknown
  | some n =>
    rw [place] at first
    cases first with
    | byAddress _ _ unknown => exact absurd shadowed.1 unknown
    | @byId before own behind same =>
      have gone : identity.id ∉ ids (before ++ behind) := same ▸ not_mem_ids_others distinct
      have again := (find?_remove_eq_none_iff identity distinct).not_left.mpr shadowed
      rw [remove_of_split place] at again ⊢
      have second := meant_find? identity (before ++ behind)
      cases place' : find? (before ++ behind) identity with
      | none => exact absurd place' again
      | some n =>
        rw [place'] at second
        generalize left : before ++ behind = rest at *
        cases second with
        | byId front back same => exact absurd (same ▸ mem_ids (by simp)) gone
        | @byAddress front i back _ shares =>
          have among : i ∈ before ++ behind := left ▸ by simp
          refine ⟨front, i, back, rfl, ?_, fun e => gone (e ▸ mem_ids (by simp)), shares,
            remove_of_split place'⟩
          exact List.mem_append.mpr
            ((List.mem_append.mp among).imp_right (List.mem_cons_of_mem own))

theorem store_again (c : InstanceCache) (service : String)
    (update : List ServiceInstance × List Change) :
    (c.store service update).1.store service (update.1, []) = ((c.store service update).1, []) := by
  rw [store, Dictionary.insert_eq_self (c.get?_store service update)]
  rfl

theorem store_upsert_again (c : InstanceCache) (service : String) (i : ServiceInstance) :
    (c.store service (upsert (c.instances service) i)).1.store service
        (upsert ((c.store service (upsert (c.instances service) i)).1.instances service) i) =
      ((c.store service (upsert (c.instances service) i)).1, []) := by
  rw [instances_store, if_pos rfl, upsert_again]
  exact store_again c service _

theorem amend_amend {c : InstanceCache} {service : String} {l : List ServiceInstance}
    (h : c.services.get? service = some l)
    (f : List ServiceInstance → List ServiceInstance × List Change) :
    (c.amend service f).1.amend service f =
      (c.store service (f l)).1.store service (f (f l).1) := by
  rw [amend_of_known h, amend_of_known (c.get?_store service (f l))]

theorem amend_again {c : InstanceCache} {service : String}
    {f : List ServiceInstance → List ServiceInstance × List Change}
    (h : ∀ l, c.services.get? service = some l → f (f l).1 = ((f l).1, [])) :
    (c.amend service f).1.amend service f = ((c.amend service f).1, []) := by
  cases known : c.services.get? service with
  | none => rw [amend_of_unknown known, amend_of_unknown known]
  | some l =>
    rw [amend_amend known, amend_of_known known, h l known]
    exact store_again c service (f l)

/-- A notification whose repetition hits another instance: it ends the registration of an id that
an instance has, and exactly one other instance has the address that the id leads to. -/
def Overshoots (c : InstanceCache) : Notification → Prop
  | .unregistered service id => Shadowed (ProviderIdentity.ofName id) (c.instances service)
  | _ => False

theorem Reachable.exists_apply_again {c : InstanceCache} (h : Reachable c) {service id : String}
    (overshoots : c.Overshoots (.unregistered service id)) :
    ∃ front i back, (c.apply (.unregistered service id)).1.instances service =
        front ++ i :: back ∧
      i ∈ c.instances service ∧ i.providerId ≠ id ∧
      i.providerAddress = (ProviderIdentity.ofName id).address ∧
      (c.apply (.unregistered service id)).1.apply (.unregistered service id) =
        (c.apply (.unregistered service id)).1.store service (front ++ back, departure i) := by
  cases known : c.services.get? service with
  | none =>
    have member := overshoots.1
    rw [instances_of_unknown known] at member
    exact absurd member List.not_mem_nil
  | some l =>
    have list := instances_of_known known
    have distinct := h.distinct service
    rw [Overshoots, list] at overshoots
    rw [list] at distinct ⊢
    obtain ⟨front, i, back, left, listed, other, shares, again⟩ :=
      exists_remove_again distinct overshoots
    have once : c.apply (.unregistered service id) =
        c.store service (remove l (ProviderIdentity.ofName id)) := amend_of_known known _
    refine ⟨front, i, back, ?_, listed, fun same => other ?_, beq_iff_eq.mp shares, ?_⟩
    · rw [once, instances_store, if_pos rfl, left]
    · rw [same, ProviderIdentity.id_ofName]
    · rw [once, ← again]
      exact amend_of_known (c.get?_store service _) _

/-- To take in a notification once more changes nothing and calls no handler, unless the
notification ends the registration of one of two instances with the same address by its id. Then,
and only then, the other one is taken for the one that is meant, and is taken out as well. -/
theorem Reachable.apply_again_iff {c : InstanceCache} (h : Reachable c) (n : Notification) :
    ((c.apply n).1.apply n = ((c.apply n).1, []) ↔ ¬c.Overshoots n) ∧
    ∀ service id, n = .unregistered service id → c.Overshoots n →
      ∃ front i back, (c.apply n).1.instances service = front ++ i :: back ∧
        i ∈ c.instances service ∧ i.providerId ≠ id ∧
        i.providerAddress = (ProviderIdentity.ofName id).address ∧
        (c.apply n).1.apply n = (c.apply n).1.store service (front ++ back, departure i) := by
  refine ⟨?_, fun service id same overshoots => ?_⟩
  · cases n with
    | registered i =>
      exact ⟨fun _ => id, fun _ => store_upsert_again c i.serviceName (normalized i)⟩
    | updated i =>
      exact ⟨fun _ => id, fun _ => store_upsert_again c i.serviceName (normalized i)⟩
    | heartbeat service id status timestampMs =>
      exact ⟨fun _ => False.elim,
        fun _ => amend_again fun l _ => beat_again l _ status timestampMs⟩
    | unregistered service id =>
      have single := find?_remove_eq_none_iff (ProviderIdentity.ofName id) (h.distinct service)
      constructor
      · intro again overshoots
        obtain ⟨front, i, back, before, -, -, -, removed⟩ := h.exists_apply_again overshoots
        have after := congrArg (fun r => r.1.instances service) (removed.symm.trans again)
        simp only [instances_store, if_pos] at after
        have shorter := congrArg List.length (after.trans before)
        simp at shorter
      · intro single'
        refine amend_again fun l known => ?_
        have list := instances_of_known known
        rw [list] at single
        exact remove_of_none (single.mpr (list ▸ single'))
  · subst same
    exact h.exists_apply_again overshoots

def neighbours : InstanceCache :=
  let provider (id : String) : ServiceInstance :=
    (ServiceInstance.new "billing" "10.0.0.1" "http://x").withProviderId id
  [Operation.addHandler "billing" "log", .apply (.registered (provider "10.0.0.1-8080")),
    .apply (.registered (provider "10.0.0.1-8081"))].foldl (fun c o => (c.perform o).1) {}

theorem reachable_neighbours : Reachable neighbours :=
  .step _ (.step _ (.step _ .start))

/-- An address that two providers share ends no registration, be it taken in once or twice. The id
of one of them ends both. -/
theorem apply_again_neighbours :
    (¬neighbours.Overshoots (.unregistered "billing" "10.0.0.1") ∧
      (neighbours.apply (.unregistered "billing" "10.0.0.1")).1.apply
        (.unregistered "billing" "10.0.0.1") =
        ((neighbours.apply (.unregistered "billing" "10.0.0.1")).1, [])) ∧
    neighbours.Overshoots (.unregistered "billing" "10.0.0.1-8080") ∧
    (neighbours.apply (.unregistered "billing" "10.0.0.1-8080")).1.apply
      (.unregistered "billing" "10.0.0.1-8080") ≠
        ((neighbours.apply (.unregistered "billing" "10.0.0.1-8080")).1, []) ∧
    ids ((neighbours.apply (.unregistered "billing" "10.0.0.1-8080")).1.instances "billing") =
      ["10.0.0.1-8081"] ∧
    ((neighbours.apply (.unregistered "billing" "10.0.0.1-8080")).1.apply
      (.unregistered "billing" "10.0.0.1-8080")).1.instances "billing" = [] := by
  have plain : ¬neighbours.Overshoots (.unregistered "billing" "10.0.0.1") := by
    rintro ⟨known, -⟩
    exact absurd known (by decide +kernel)
  have shadowed : neighbours.Overshoots (.unregistered "billing" "10.0.0.1-8080") :=
    ⟨by decide +kernel, by decide +kernel⟩
  have left : ids ((neighbours.apply (.unregistered "billing" "10.0.0.1-8080")).1.instances
      "billing") = ["10.0.0.1-8081"] := by decide +kernel
  obtain ⟨silent, removes⟩ := reachable_neighbours.apply_again_iff
    (.unregistered "billing" "10.0.0.1-8080")
  obtain ⟨front, i, back, split, -, -, -, again⟩ := removes "billing" _ rfl shadowed
  refine ⟨⟨plain, (reachable_neighbours.apply_again_iff _).1.mpr plain⟩, shadowed,
    fun same => silent.mp same shadowed, left, ?_⟩
  -- One instance is left, so the one that is taken out has no others before or behind it.
  have one := congrArg List.length (split ▸ left)
  rw [again, instances_store, if_pos rfl]
  simp only [ids, List.length_map, List.length_append, List.length_cons, List.length_nil] at one
  rw [List.eq_nil_of_length_eq_zero (l := front) (by omega),
    List.eq_nil_of_length_eq_zero (l := back) (by omega)]
  rfl

/-- The same end of a registration, taken in twice, takes both neighbours away. -/
theorem not_forall_apply_again : ¬∀ c, Reachable c → ∀ n : Notification,
    (∀ s, ((c.apply n).1.apply n).1.instances s = (c.apply n).1.instances s) ∧
      ((c.apply n).1.apply n).2 = [] := by
  intro all
  have silent := (all neighbours reachable_neighbours
    (.unregistered "billing" "10.0.0.1-8080")).2
  exact absurd silent (by decide +kernel)

end ServiceDirectory.InstanceCache
