import ServiceDirectory.Proofs.Cache.Runs

/-! What a whole list makes of the list of a service. Of the ids that were there those that are
named stay, in their order; the others that are named come behind them, in the order in which they
are first named. Under each id there is then what was named last, with the last heartbeat that is
known of any instance with this id. -/
namespace ServiceDirectory.InstanceCache

/-- The first instance of a list with an id. -/
def held (id : String) (l : List ServiceInstance) : Option ServiceInstance :=
  l.find? (·.providerId == id)

def named (id : String) (l : List ServiceInstance) : List ServiceInstance :=
  l.filter (·.providerId == id)

def lastBeat (l : List ServiceInstance) : Option UInt64 :=
  (l.filterMap (·.lastHeartbeatMs)).getLast?

theorem lastBeat_concat (l : List ServiceInstance) (i : ServiceInstance) :
    lastBeat (l ++ [i]) = i.lastHeartbeatMs.or (lastBeat l) := by
  rw [lastBeat, List.filterMap_append, List.getLast?_append]
  cases seen : i.lastHeartbeatMs <;> simp [seen, lastBeat]

theorem held_cons (id : String) (i : ServiceInstance) (l : List ServiceInstance) :
    held id (i :: l) = if i.providerId = id then some i else held id l := by
  rw [held, List.find?_cons]
  split <;> simp_all [held]

theorem named_concat (id : String) (l : List ServiceInstance) (i : ServiceInstance) :
    named id (l ++ [i]) = named id l ++ if i.providerId = id then [i] else [] := by
  rw [named, List.filter_append, List.filter_cons, List.filter_nil]
  simp only [beq_iff_eq, named]

theorem held_of_mem {l : List ServiceInstance} {i : ServiceInstance} (distinct : (ids l).Nodup)
    (h : i ∈ l) : held i.providerId l = some i := by
  obtain ⟨front, back, rfl⟩ := List.append_of_mem h
  have others := not_mem_ids_others distinct
  rw [ids_append, List.mem_append, not_or] at others
  refine List.find?_eq_some_iff_append.mpr ⟨beq_self_eq_true _, front, back, rfl, fun j hj => ?_⟩
  have other : j.providerId ≠ i.providerId := fun e => others.1 (e ▸ mem_ids hj)
  simpa using other

/-! ### One instance -/

theorem ids_upsert (l : List ServiceInstance) (i : ServiceInstance) :
    ids (upsert l i).1 = if i.providerId ∈ ids l then ids l else ids l ++ [i.providerId] := by
  split
  · rename_i known
    obtain ⟨front, old, back, rfl, same, first⟩ := split_of_mem_ids known
    rw [upsert_of_split same first, ids_append, ids_append, ids_cons, ids_cons, same]
    rfl
  · rename_i fresh
    rw [upsert_of_not_mem fresh, ids_append]
    rfl

theorem held_upsert (id : String) (l : List ServiceInstance) (i : ServiceInstance) :
    held id (upsert l i).1 =
      if i.providerId = id then
        some { i with
          lastHeartbeatMs := i.lastHeartbeatMs.or ((held id l).bind (·.lastHeartbeatMs)) }
      else held id l := by
  induction l with
  | nil =>
    rw [upsert, held_cons]
    cases i
    simp [held]
  | cons old l ih =>
    by_cases same : old.providerId = i.providerId
    · rw [upsert, if_pos same, held_cons, held_cons, same]
      by_cases mine : i.providerId = id
      · simp only [inherit, mine, if_true, Option.bind_some]
      · simp only [inherit, mine, if_false]
    · rw [upsert, if_neg same, held_cons, held_cons, ih]
      by_cases mine : i.providerId = id
      · have other : old.providerId ≠ id := mine ▸ same
        simp only [other, if_false]
      · simp only [mine, if_false]

/-! ### A whole list -/

theorem putAll_concat (l instances : List ServiceInstance) (i : ServiceInstance) :
    putAll l (instances ++ [i]) = (upsert (putAll l instances) (normalized i)).1 := by
  rw [putAll, List.foldl_append]
  rfl

theorem ids_putAll (l instances : List ServiceInstance) :
    ids (putAll l instances) = ids l ++ ((ids instances).filter (· ∉ ids l)).eraseDups := by
  induction instances generalizing l with
  | nil => exact (List.append_nil _).symm
  | cons i instances ih =>
    have put : ids (upsert l (normalized i)).1 =
        if i.providerId ∈ ids l then ids l else ids l ++ [i.providerId] := ids_upsert l _
    rw [putAll, List.foldl_cons, ← putAll, ih, put, ids_cons, List.filter_cons]
    by_cases known : i.providerId ∈ ids l
    · simp [known]
    · have rest : (ids instances).filter (· ∉ ids l ++ [i.providerId]) =
          ((ids instances).filter (· ∉ ids l)).filter fun id => !id == i.providerId := by
        rw [List.filter_filter]
        refine List.filter_congr fun id _ => Bool.eq_iff_iff.mpr ?_
        simp [and_comm]
      rw [if_neg known, if_pos (decide_eq_true known), List.eraseDups_cons, rest, List.append_assoc]
      rfl

theorem held_putAll (id : String) (l instances : List ServiceInstance) :
    held id (putAll l instances) =
      ((named id instances).getLast?.map fun last => { normalized last with
        lastHeartbeatMs := lastBeat ((held id l).toList ++ named id instances) }).or
          (held id l) := by
  induction instances using List.reverseRecOn with
  | nil => rfl
  | append_singleton instances i ih =>
    -- What was held so far has the last heartbeat that was known so far.
    have known : (held id (putAll l instances)).bind (·.lastHeartbeatMs) =
        lastBeat ((held id l).toList ++ named id instances) := by
      rw [ih]
      cases last : (named id instances).getLast? with
      | some j => rfl
      | none =>
        rw [List.getLast?_eq_none_iff.mp last, List.append_nil, Option.map_none, Option.none_or]
        cases held id l with
        | none => rfl
        | some old => cases seen : old.lastHeartbeatMs <;> simp [lastBeat, seen]
    rw [putAll_concat, held_upsert, known, named_concat]
    by_cases mine : i.providerId = id
    · have same : (normalized i).providerId = id := mine
      rw [if_pos same, if_pos mine, ← List.append_assoc, lastBeat_concat, List.getLast?_concat]
      rfl
    · have other : (normalized i).providerId ≠ id := mine
      rw [if_neg other, if_neg mine, List.append_nil, ih]

section

variable (l instances : List ServiceInstance)

theorem ids_kept :
    ids (l.filter fun old => instances.any (·.providerId == old.providerId)) =
      (ids l).filter (· ∈ ids instances) := by
  rw [ids, ids.eq_1 l, List.filter_map]
  refine congrArg _ (List.filter_congr fun old _ => Bool.eq_iff_iff.mpr ?_)
  simp [ids]

theorem held_kept {id : String} (mentioned : id ∈ ids instances) :
    held id (l.filter fun old => instances.any (·.providerId == old.providerId)) = held id l := by
  rw [held, List.find?_filter, held]
  refine congrArg (List.find? · l) (funext fun old => Bool.eq_iff_iff.mpr ?_)
  obtain ⟨i, listed, rfl⟩ := List.mem_map.mp mentioned
  simp only [decide_eq_true_eq, beq_iff_eq, List.any_eq_true]
  exact ⟨And.right, fun same => ⟨⟨i, listed, same.symm⟩, same⟩⟩

theorem ids_replaceAll :
    ids (replaceAll l instances).1 =
      (ids l).filter (· ∈ ids instances) ++
        ((ids instances).filter (· ∉ ids l)).eraseDups := by
  rw [fst_replaceAll, ids_putAll, ids_kept]
  refine congrArg (_ ++ List.eraseDups ·) (List.filter_congr fun id mentioned => ?_)
  simp [mentioned]

theorem mem_ids_replaceAll (id : String) :
    id ∈ ids (replaceAll l instances).1 ↔ id ∈ ids instances := by
  rw [ids_replaceAll, List.mem_append, List.mem_eraseDups, List.mem_filter, List.mem_filter]
  by_cases known : id ∈ ids l <;> simp [known]

theorem held_replaceAll {id : String} (mentioned : id ∈ ids instances) :
    ∃ last, (named id instances).getLast? = some last ∧
      held id (replaceAll l instances).1 = some { normalized last with
        lastHeartbeatMs := lastBeat ((held id l).toList ++ named id instances) } := by
  obtain ⟨i, listed, same⟩ := List.mem_map.mp mentioned
  have some_named : named id instances ≠ [] :=
    List.ne_nil_of_mem (List.mem_filter.mpr ⟨listed, beq_iff_eq.mpr same⟩)
  refine ⟨_, List.getLast?_eq_some_getLast some_named, ?_⟩
  rw [fst_replaceAll, held_putAll, held_kept l instances mentioned,
    List.getLast?_eq_some_getLast some_named]
  rfl

end

/-- Once a whole list is taken in for a service, the ids of the service are those of the list, each
of them once: first those that were there, in their order, and then the others, in the order in
which they come first. Each instance is the last of the list with its id, with the address that the
id leads to, and with the last heartbeat that is given by the instance that was there and those of
the list with this id, one after the other. Nothing else is known of any other service than
before. -/
theorem Reachable.replaced_by_list {c : InstanceCache} (h : Reachable c) (service : String)
    (instances : List ServiceInstance) :
    let before := c.instances service
    let after := (c.updateService service instances).1.instances service
    ids after = (ids before).filter (· ∈ ids instances) ++
      ((ids instances).filter (· ∉ ids before)).eraseDups ∧
    ((ids after).Nodup ∧ ∀ id, id ∈ ids after ↔ id ∈ ids instances) ∧
    (∀ i ∈ after, ∃ last, (named i.providerId instances).getLast? = some last ∧
      i = { last with
        providerAddress := (ProviderIdentity.ofName last.providerId).address
        lastHeartbeatMs :=
          lastBeat ((held i.providerId before).toList ++ named i.providerId instances) }) ∧
    ∀ s, s ≠ service →
      (c.updateService service instances).1.services.get? s = c.services.get? s := by
  intro before after
  have list : after = (replaceAll before instances).1 := by
    change (c.store service _).1.instances service = _
    rw [instances_store, if_pos rfl]
  have distinct : (ids after).Nodup :=
    (Reachable.step (.updateService service instances) h).distinct service
  have same : ∀ id, id ∈ ids after ↔ id ∈ ids instances :=
    list ▸ mem_ids_replaceAll before instances
  refine ⟨list ▸ ids_replaceAll before instances, ⟨distinct, same⟩, fun i hi => ?_,
    fun s other => ?_⟩
  · have mentioned : i.providerId ∈ ids instances := (same _).mp (mem_ids hi)
    obtain ⟨last, found, content⟩ := held_replaceAll before instances mentioned
    rw [← list, held_of_mem distinct hi] at content
    exact ⟨last, found, Option.some.inj content⟩
  · exact c.get?_store_other other _

/-- Two providers are named several times in turn: one that is there, with a heartbeat that nobody
else has, and a new one, whose second instance alone has a heartbeat. A third one goes. -/
theorem replaced_by_list_repeated :
    let older := (ServiceInstance.new "billing" "10.0.0.1" "http://a").withProviderId "10.0.0.1-80"
    let new (uri : String) := ServiceInstance.new "billing" "10.0.0.3" uri
    let c := run {} [.apply (.registered (.new "billing" "10.0.0.2" "http://b")),
      .apply (.registered older), .apply (.heartbeat "billing" "10.0.0.1" .down 5)]
    let l := (c.updateService "billing" [new "http://c", { older with uri := "http://d" },
      { new "http://e" with lastHeartbeatMs := some 7 },
      { older with uri := "http://f", providerAddress := "10.0.0.9" }, new "http://g"]).1.instances
        "billing"
    Reachable c ∧ ids l = ["10.0.0.1-80", "10.0.0.3"] ∧
    (∀ i ∈ l, i.providerId = "10.0.0.1-80" →
      i = { older with uri := "http://f", lastHeartbeatMs := some 5 }) ∧
    ∀ i ∈ l, i.providerId = "10.0.0.3" →
      i = { new "http://g" with lastHeartbeatMs := some 7 } := by
  intro older new c l
  have reached : Reachable c := Reachable.start.run _
  obtain ⟨order, -, content, -⟩ := reached.replaced_by_list "billing" [new "http://c",
    { older with uri := "http://d" }, { new "http://e" with lastHeartbeatMs := some 7 },
    { older with uri := "http://f", providerAddress := "10.0.0.9" }, new "http://g"]
  refine ⟨reached, order.trans (by decide +kernel), fun i hi same => ?_, fun i hi same => ?_⟩
  all_goals
    obtain ⟨last, found, whole⟩ := content i hi
    rw [same] at found whole
    obtain rfl := Option.some.inj found
    exact whole.trans (by decide +kernel)

end ServiceDirectory.InstanceCache
