import ServiceDirectory.Proofs.Cache.Runs

/-! A view that a handler keeps of its service by what it is told: an instance that becomes
available is entered, one that becomes unavailable is taken out, and a change is noted for instances
that are in it. Such a view has at any time the instances that are up, as they are in the cache, and
no call enters an instance that is in it or takes one out that is not. -/
namespace ServiceDirectory.InstanceCache

/-- The address and the metadata of instances by their ids. -/
abbrev View := Dictionary (String × Dictionary String)

def entry (i : ServiceInstance) : String × Dictionary String := (i.uri, i.metadata)

namespace View

def hear (v : View) : Change → View
  | .available i => v.insert i.providerId (entry i)
  | .unavailable i => v.erase i.providerId
  | .changed i => if v.contains i.providerId then v.insert i.providerId (entry i) else v

/-- An instance that becomes available is not in the view, one that becomes unavailable is. -/
def Fits (v : View) : Change → Prop
  | .available i => v.get? i.providerId = none
  | .unavailable i => v.contains i.providerId = true
  | .changed _ => True

def FitsAll (v : View) : List Change → Prop
  | [] => True
  | c :: cs => v.Fits c ∧ (v.hear c).FitsAll cs

theorem fitsAll_append {v : View} {cs ds : List Change} :
    v.FitsAll (cs ++ ds) ↔ v.FitsAll cs ∧ (cs.foldl hear v).FitsAll ds := by
  induction cs generalizing v with
  | nil => simp [FitsAll]
  | cons c cs ih => simp only [List.cons_append, FitsAll, ih, List.foldl_cons, and_assoc]

end View

def shown (i : ServiceInstance) : Option (String × Dictionary String) :=
  if i.isUp then some (entry i) else none

/-- A view has what a list shows, and nothing else. -/
structure View.Tracks (v : View) (l : List ServiceInstance) : Prop where
  listed : ∀ i ∈ l, v.get? i.providerId = shown i
  others : ∀ id, id ∉ ids l → v.get? id = none

namespace View

variable {v : View}

theorem tracks_empty : Tracks .empty [] :=
  ⟨fun _ h => absurd h List.not_mem_nil, fun _ _ => rfl⟩

/-- After some changes the view has `now` under an id, and all else is as before. -/
structure Notes (v : View) (cs : List Change) (id : String)
    (now : Option (String × Dictionary String)) : Prop where
  fits : v.FitsAll cs
  at_id : (cs.foldl hear v).get? id = now
  elsewhere : ∀ other, other ≠ id → (cs.foldl hear v).get? other = v.get? other

theorem notes_nil {id : String} {now : Option (String × Dictionary String)}
    (h : v.get? id = now) : v.Notes [] id now :=
  ⟨trivial, h, fun _ _ => rfl⟩

theorem notes_cons {c : Change} {cs : List Change} {id : String}
    {now : Option (String × Dictionary String)} (fits : v.Fits c)
    (elsewhere : ∀ other, other ≠ id → (v.hear c).get? other = v.get? other)
    (rest : (v.hear c).Notes cs id now) : v.Notes (c :: cs) id now :=
  ⟨⟨fits, rest.fits⟩, rest.at_id, fun other h => (rest.elsewhere other h).trans (elsewhere other h)⟩

theorem get?_hear_available (v : View) (i : ServiceInstance) (id : String) :
    (v.hear (.available i)).get? id = if id = i.providerId then some (entry i) else v.get? id :=
  v.get?_insert i.providerId id (entry i)

theorem get?_hear_unavailable (v : View) (i : ServiceInstance) (id : String) :
    (v.hear (.unavailable i)).get? id = if id = i.providerId then none else v.get? id :=
  v.get?_erase i.providerId id

theorem get?_hear_changed (v : View) (i : ServiceInstance) (id : String) :
    (v.hear (.changed i)).get? id =
      if id = i.providerId then (v.get? id).map fun _ => entry i else v.get? id := by
  cases known : v.get? i.providerId with
  | none =>
    have absent : v.contains i.providerId = false := by rw [Dictionary.contains, known]; rfl
    rw [hear, if_neg (by simp [absent])]
    split
    · rename_i same
      rw [same, known]
      rfl
    · rfl
  | some e =>
    have present : v.contains i.providerId = true := by rw [Dictionary.contains, known]; rfl
    rw [hear, if_pos present, Dictionary.get?_insert]
    split
    · rename_i same
      rw [same, known]
      rfl
    · rfl

theorem notes_arrival {i : ServiceInstance} (absent : v.get? i.providerId = none) :
    v.Notes (arrival i) i.providerId (shown i) := by
  unfold arrival shown
  split
  · refine notes_cons absent (fun other h => ?_) (notes_nil ?_)
    · rw [get?_hear_available, if_neg h]
    · rw [get?_hear_available, if_pos rfl]
  · exact notes_nil absent

theorem notes_departure {i : ServiceInstance} (before : v.get? i.providerId = shown i) :
    v.Notes (departure i) i.providerId none := by
  unfold departure
  unfold shown at before
  split at before
  · rename_i up
    rw [if_pos up]
    refine notes_cons ?_ (fun other h => ?_) (notes_nil ?_)
    · change v.contains i.providerId = true
      rw [Dictionary.contains, before]
      rfl
    · rw [get?_hear_unavailable, if_neg h]
    · rw [get?_hear_unavailable, if_pos rfl]
  · rename_i down
    rw [if_neg down]
    exact notes_nil before

theorem notes_content {old new : ServiceInstance} (now : Option (String × Dictionary String))
    (before : v.get? new.providerId = now)
    (after : now.map (fun _ => entry new) = shown new)
    (still : entry old = entry new → now = shown new) :
    v.Notes (if old.uri ≠ new.uri ∨ old.metadata ≠ new.metadata then [.changed new] else [])
      new.providerId (shown new) := by
  split
  · refine notes_cons trivial (fun other h => ?_) (notes_nil ?_)
    · rw [get?_hear_changed, if_neg h]
    · rw [get?_hear_changed, if_pos rfl, before]
      exact after
  · rename_i alike
    rw [not_or, not_not, not_not] at alike
    exact notes_nil (before.trans (still (Prod.ext alike.1 alike.2)))

theorem notes_changesBetween {old new : ServiceInstance} (same : new.providerId = old.providerId)
    (before : v.get? old.providerId = shown old) :
    v.Notes (changesBetween old new) new.providerId (shown new) := by
  rw [← same] at before
  unfold changesBetween
  cases was : old.isUp <;> cases is : new.isUp
  -- Down before and now: the view has nothing, whatever else is told.
  · rw [shown, was] at before
    exact notes_content none before (by simp [shown, is]) fun _ => by simp [shown, is]
  · rw [shown, was] at before
    refine notes_cons before (fun other h => ?_) (notes_content (some (entry new)) ?_ ?_ ?_)
    · rw [get?_hear_available, if_neg h]
    · rw [get?_hear_available, if_pos rfl]
    · simp [shown, is]
    · simp [shown, is]
  · rw [shown, was] at before
    refine notes_cons ?_ (fun other h => ?_) (notes_content none ?_ ?_ ?_)
    · change v.contains new.providerId = true
      rw [Dictionary.contains, before]
      rfl
    · rw [get?_hear_unavailable, if_neg h]
    · rw [get?_hear_unavailable, if_pos rfl]
    · simp [shown, is]
    · simp [shown, is]
  · rw [shown, was] at before
    exact notes_content (some (entry old)) before (by simp [shown, is]) fun alike => by
      simp [shown, is, alike]

/-- A view that has what a list shows follows every revision of it. -/
theorem Tracks.revision {l m : List ServiceInstance} {cs : List Change} (h : v.Tracks l)
    (distinct : (ids l).Nodup) (r : Revision l cs m) :
    v.FitsAll cs ∧ Tracks (cs.foldl hear v) m := by
  cases r with
  | @come l i fresh =>
    have notes := notes_arrival (h.others i.providerId fresh)
    refine ⟨notes.fits, fun j hj => ?_, fun id hid => ?_⟩
    · rcases List.mem_append.mp hj with hj | hj
      · have other : j.providerId ≠ i.providerId := fun e => fresh (e ▸ mem_ids hj)
        rw [notes.elsewhere _ other]
        exact h.listed j hj
      · obtain rfl := List.mem_singleton.mp hj
        exact notes.at_id
    · rw [ids_append, List.mem_append, not_or] at hid
      have other : id ≠ i.providerId := fun e => hid.2 (e ▸ List.mem_cons_self)
      rw [notes.elsewhere _ other]
      exact h.others id hid.1
  | go front i back =>
    have notes := notes_departure (h.listed i (by simp))
    have gone := not_mem_ids_others distinct
    refine ⟨notes.fits, fun j hj => ?_, fun id hid => ?_⟩
    · have other : j.providerId ≠ i.providerId := fun e => gone (e ▸ mem_ids hj)
      rw [notes.elsewhere _ other]
      refine h.listed j ?_
      rcases List.mem_append.mp hj with hj | hj
      · exact List.mem_append_left _ hj
      · exact List.mem_append_right _ (List.mem_cons_of_mem i hj)
    · by_cases same : id = i.providerId
      · rw [same]
        exact notes.at_id
      · rw [notes.elsewhere _ same]
        refine h.others id ?_
        rw [ids_append, List.mem_append, not_or] at hid
        simp [hid, same]
  | @alter front old new back same =>
    have notes := notes_changesBetween same (h.listed old (by simp))
    have alone : new.providerId ∉ ids (front ++ back) := same ▸ not_mem_ids_others distinct
    refine ⟨notes.fits, fun j hj => ?_, fun id hid => ?_⟩
    · rcases List.mem_cons.mp (List.perm_middle.mem_iff.mp hj) with rfl | hj
      · exact notes.at_id
      · have other : j.providerId ≠ new.providerId := fun e => alone (e ▸ mem_ids hj)
        rw [notes.elsewhere _ other]
        exact h.listed j (List.perm_middle.mem_iff.mpr (List.mem_cons_of_mem old hj))
    · rw [ids_append, ids_cons] at hid
      have other : id ≠ new.providerId := fun e => hid (by simp [e])
      rw [notes.elsewhere _ other]
      refine h.others id ?_
      rw [ids_append, ids_cons, ← same]
      exact hid

theorem Tracks.revisions {l m : List ServiceInstance} {cs : List Change} (h : v.Tracks l)
    (distinct : (ids l).Nodup) (r : Revisions l cs m) :
    v.FitsAll cs ∧ Tracks (cs.foldl hear v) m := by
  induction r generalizing v with
  | none l => exact ⟨trivial, h⟩
  | first one rest ih =>
    obtain ⟨fits, tracks⟩ := h.revision distinct one
    obtain ⟨more, after⟩ := ih tracks (one.nodup distinct)
    refine ⟨fitsAll_append.mpr ⟨fits, more⟩, ?_⟩
    rw [List.foldl_append]
    exact after

theorem Tracks.get?_eq_some_iff {l : List ServiceInstance} (h : v.Tracks l) {id : String}
    {e : String × Dictionary String} :
    v.get? id = some e ↔ ∃ i ∈ l.filter (·.isUp), i.providerId = id ∧ entry i = e := by
  constructor
  · intro known
    have listed : id ∈ ids l := by
      by_contra absent
      rw [h.others id absent] at known
      exact absurd known (by simp)
    obtain ⟨i, hi, rfl⟩ := List.mem_map.mp listed
    rw [h.listed i hi, shown] at known
    split at known
    · rename_i up
      exact ⟨i, List.mem_filter.mpr ⟨hi, up⟩, rfl, Option.some.inj known⟩
    · exact absurd known (by simp)
  · rintro ⟨i, hi, rfl, rfl⟩
    obtain ⟨hi, up⟩ := List.mem_filter.mp hi
    rw [h.listed i hi, shown, if_pos up]

end View

structure Watched where
  cache : InstanceCache
  view : View := .empty

namespace Watched

/-- Goes on by one operation. The view is emptied when the cache is. -/
def step (handler : String) (w : Watched) (o : Operation) : Watched where
  cache := (w.cache.perform o).1
  view := match o with
    | .clear => .empty
    | o => (heard handler (w.cache.perform o).2).foldl View.hear w.view

def run (handler : String) (w : Watched) (os : List Operation) : Watched :=
  os.foldl (step handler) w

/-- The view has what is up, and the handler is still registered as it was. -/
structure Faithful (service handler : String) (w : Watched) : Prop where
  hears : w.cache.Hears service handler
  distinct : (ids (w.cache.instances service)).Nodup
  tracks : w.view.Tracks (w.cache.instances service)

variable {service handler : String} {w : Watched}

theorem Faithful.step (h : w.Faithful service handler) {o : Operation}
    (keeps : o.Keeps service handler) :
    w.view.FitsAll (heard handler (w.cache.perform o).2) ∧
      (w.step handler o).Faithful service handler := by
  by_cases clears : o = .clear
  · subst clears
    exact ⟨trivial, h.hears.perform keeps, List.nodup_nil, View.tracks_empty⟩
  · obtain ⟨cs, revisions, told⟩ := w.cache.revised_perform clears service
    obtain ⟨fits, tracks⟩ := h.tracks.revisions h.distinct revisions
    have view : (w.step handler o).view = cs.foldl View.hear w.view := by
      rw [← told handler h.hears]
      cases o with
      | clear => exact absurd rfl clears
      | _ => rfl
    rw [told handler h.hears]
    exact ⟨fits, h.hears.perform keeps, revisions.invariant (fun r => r.nodup) h.distinct,
      view ▸ tracks⟩

theorem Faithful.run (h : w.Faithful service handler) {os : List Operation}
    (keep : ∀ o ∈ os, o.Keeps service handler) : (w.run handler os).Faithful service handler := by
  induction os generalizing w with
  | nil => exact h
  | cons o os ih =>
    have next := (h.step (keep o List.mem_cons_self)).2
    exact ih next fun o ho => keep o (List.mem_cons_of_mem _ ho)

end Watched

/-- Whatever is done to a cache, a handler that was registered for a service while the cache was
empty, and stays so, can tell from its calls what is up: an entry is in its view if and only if an
instance of the service with this id, address and metadata is up in the cache. Whatever is done
next, each instance that it is then told to be available is not in the view at that moment, and each
one that it is told to be unavailable is. -/
theorem view_of_run {c : InstanceCache} {service handler : String} (fresh : c.services = .empty)
    (hears : c.Hears service handler) {os : List Operation}
    (keep : ∀ o ∈ os, o.Keeps service handler) :
    (∀ id e, ((Watched.mk c .empty).run handler os).view.get? id = some e ↔
      ∃ i ∈ ((Watched.mk c .empty).run handler os).cache.candidates service,
        i.providerId = id ∧ (i.uri, i.metadata) = e) ∧
    ∀ o, o.Keeps service handler →
      ((Watched.mk c .empty).run handler os).view.FitsAll
        (heard handler (((Watched.mk c .empty).run handler os).cache.perform o).2) := by
  have empty : c.instances service = [] :=
    instances_of_unknown (by rw [fresh, Dictionary.get?_empty])
  have start : (Watched.mk c .empty).Faithful service handler :=
    ⟨hears, empty ▸ List.nodup_nil, empty ▸ View.tracks_empty⟩
  have faithful := start.run keep
  exact ⟨fun id e => faithful.tracks.get?_eq_some_iff, fun o keeps => (faithful.step keeps).1⟩

/-- A provider of the older form goes down by a heartbeat of its address, comes up again elsewhere,
and gives way to a list that names another provider twice. -/
theorem view_of_run_replaced :
    let c := ({} : InstanceCache).addHandler "billing" "screen"
    let older := (ServiceInstance.new "billing" "10.0.0.1" "http://a").withProviderId "10.0.0.1-80"
    let done : List Operation := [.apply (.registered older),
      .apply (.heartbeat "billing" "10.0.0.1" .down 5),
      .apply (.updated { older with uri := "http://b" }), .addHandler "billing" "log",
      .updateService "billing" [.new "billing" "10.0.0.2" "http://c",
        .new "billing" "10.0.0.2" "http://d"]]
    let w := (Watched.mk c .empty).run "screen" done
    w.view.get? "10.0.0.2" = some ("http://d", .empty) ∧
    (∃ i ∈ w.cache.candidates "billing", i.providerId = "10.0.0.2" ∧
      (i.uri, i.metadata) = ("http://d", .empty)) ∧
    w.view.FitsAll (heard "screen"
      (w.cache.perform (.apply (.unregistered "billing" "10.0.0.2-443"))).2) := by
  intro c older done w
  have hears : c.Hears "billing" "screen" := by
    refine ⟨by decide +kernel, fun s other => ?_⟩
    rw [handlersOf_addHandler, if_neg other]
    exact List.not_mem_nil
  have keep : ∀ o ∈ done, o.Keeps "billing" "screen" := by
    simp [done, Operation.Keeps]
  obtain ⟨same, fits⟩ := view_of_run rfl hears keep
  have seen : w.view.get? "10.0.0.2" = some ("http://d", .empty) := by decide +kernel
  exact ⟨seen, (same _ _).mp seen, fits _ trivial⟩

end ServiceDirectory.InstanceCache
