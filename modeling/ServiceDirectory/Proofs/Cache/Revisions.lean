import ServiceDirectory.Cache

/-! How the list of a service changes. An instance comes at the end, goes, or gives its place to one
with the same id, and each of these goes with what the handlers are told. All operations on a list
are made of such revisions, so what a revision keeps they keep. -/
namespace ServiceDirectory.InstanceCache

def ids (l : List ServiceInstance) : List String := l.map (·.providerId)

@[simp] theorem ids_nil : ids [] = [] := rfl

@[simp] theorem ids_cons (i : ServiceInstance) (l : List ServiceInstance) :
    ids (i :: l) = i.providerId :: ids l := rfl

@[simp] theorem ids_append (l m : List ServiceInstance) : ids (l ++ m) = ids l ++ ids m :=
  List.map_append

theorem mem_ids {l : List ServiceInstance} {i : ServiceInstance} (h : i ∈ l) :
    i.providerId ∈ ids l :=
  List.mem_map_of_mem h

theorem not_mem_ids_others {front back : List ServiceInstance} {i : ServiceInstance}
    (distinct : (ids (front ++ i :: back)).Nodup) : i.providerId ∉ ids (front ++ back) := by
  rw [ids_append, ids_cons] at distinct
  rw [ids_append]
  exact (List.nodup_cons.mp (List.perm_middle.nodup_iff.mp distinct)).1

theorem split_of_mem_ids {id : String} {l : List ServiceInstance} (h : id ∈ ids l) :
    ∃ front i back, l = front ++ i :: back ∧ i.providerId = id ∧ id ∉ ids front := by
  induction l with
  | nil => exact absurd h List.not_mem_nil
  | cons j l ih =>
    by_cases same : j.providerId = id
    · exact ⟨[], j, l, rfl, same, List.not_mem_nil⟩
    · have later : id ∈ ids l := (List.mem_cons.mp h).resolve_left fun e => same e.symm
      obtain ⟨front, i, back, split, found, first⟩ := ih later
      refine ⟨j :: front, i, back, by rw [split]; rfl, found, ?_⟩
      rw [ids_cons, List.mem_cons, not_or]
      exact ⟨fun e => same e.symm, first⟩

def arrival (i : ServiceInstance) : List Change := if i.isUp then [.available i] else []

def departure (i : ServiceInstance) : List Change := if i.isUp then [.unavailable i] else []

/-- One instance comes, goes or is replaced, and this is told. -/
inductive Revision : List ServiceInstance → List Change → List ServiceInstance → Prop
  | come {l : List ServiceInstance} {i : ServiceInstance} (fresh : i.providerId ∉ ids l) :
      Revision l (arrival i) (l ++ [i])
  | go (front : List ServiceInstance) (i : ServiceInstance) (back : List ServiceInstance) :
      Revision (front ++ i :: back) (departure i) (front ++ back)
  | alter (front : List ServiceInstance) {old new : ServiceInstance} (back : List ServiceInstance)
      (same : new.providerId = old.providerId) :
      Revision (front ++ old :: back) (changesBetween old new) (front ++ new :: back)

inductive Revisions : List ServiceInstance → List Change → List ServiceInstance → Prop
  | none (l : List ServiceInstance) : Revisions l [] l
  | first {l m n : List ServiceInstance} {cs ds : List Change} :
      Revision l cs m → Revisions m ds n → Revisions l (cs ++ ds) n

theorem Revision.once {l m : List ServiceInstance} {cs : List Change} (h : Revision l cs m) :
    Revisions l cs m :=
  List.append_nil cs ▸ .first h (.none m)

theorem Revisions.trans {l m n : List ServiceInstance} {cs ds : List Change}
    (h : Revisions l cs m) (more : Revisions m ds n) : Revisions l (cs ++ ds) n := by
  induction h with
  | none l => exact more
  | first one rest ih =>
    rw [List.append_assoc]
    exact .first one (ih more)

/-- What every revision keeps, a row of them keeps. -/
theorem Revisions.invariant {P : List ServiceInstance → Prop} {l m : List ServiceInstance}
    {cs : List Change} (kept : ∀ {l m cs}, Revision l cs m → P l → P m) (h : Revisions l cs m)
    (start : P l) : P m := by
  induction h with
  | none l => exact start
  | first one rest ih => exact ih (kept one start)

theorem Revision.nodup {l m : List ServiceInstance} {cs : List Change} (h : Revision l cs m)
    (distinct : (ids l).Nodup) : (ids m).Nodup := by
  cases h with
  | come fresh =>
    rw [ids_append, ids_cons, ids_nil]
    refine List.nodup_append.mpr ⟨distinct, by simp, fun a ha b hb same => fresh ?_⟩
    rw [← List.mem_singleton.mp hb, ← same]
    exact ha
  | go front i back =>
    refine distinct.sublist ?_
    rw [ids_append, ids_append]
    exact (List.sublist_cons_self _ _).append_left _
  | alter front back same =>
    rw [ids_append, ids_cons, same, ← ids_cons, ← ids_append]
    exact distinct

theorem upsert_of_not_mem {l : List ServiceInstance} {i : ServiceInstance}
    (fresh : i.providerId ∉ ids l) : upsert l i = (l ++ [i], arrival i) := by
  induction l with
  | nil => rfl
  | cons j l ih =>
    rw [ids_cons, List.mem_cons, not_or] at fresh
    have other : j.providerId ≠ i.providerId := fun e => fresh.1 e.symm
    rw [upsert, if_neg other, ih fresh.2]
    rfl

theorem upsert_of_split {front back : List ServiceInstance} {old i : ServiceInstance}
    (same : old.providerId = i.providerId) (first : i.providerId ∉ ids front) :
    upsert (front ++ old :: back) i =
      (front ++ inherit old i :: back, changesBetween old (inherit old i)) := by
  induction front with
  | nil => rw [List.nil_append, upsert, if_pos same]; rfl
  | cons j front ih =>
    rw [ids_cons, List.mem_cons, not_or] at first
    have other : j.providerId ≠ i.providerId := fun e => first.1 e.symm
    rw [List.cons_append, upsert, if_neg other, ih first.2]
    rfl

theorem revision_upsert (l : List ServiceInstance) (i : ServiceInstance) :
    Revision l (upsert l i).2 (upsert l i).1 := by
  by_cases known : i.providerId ∈ ids l
  · obtain ⟨front, old, back, rfl, same, first⟩ := split_of_mem_ids known
    rw [upsert_of_split same first]
    exact .alter front back same.symm
  · rw [upsert_of_not_mem known]
    exact .come known

def sharesAddress (identity : ProviderIdentity) (i : ServiceInstance) : Bool :=
  i.providerAddress == identity.address

theorem findIdx?_of_split {p : ServiceInstance → Bool} {front : List ServiceInstance}
    {i : ServiceInstance} (back : List ServiceInstance) (found : p i = true)
    (first : ∀ j ∈ front, p j = false) :
    (front ++ i :: back).findIdx? p = some front.length := by
  rw [List.findIdx?_append, List.findIdx?_eq_none_iff.mpr first, List.findIdx?_cons, if_pos found]
  simp

/-- The instance that an identity means: the first with the id, or else the only one with the
address, or else none. -/
inductive Meant (identity : ProviderIdentity) : List ServiceInstance → Option Nat → Prop
  | byId (front : List ServiceInstance) {i : ServiceInstance} (back : List ServiceInstance)
      (same : i.providerId = identity.id) (first : identity.id ∉ ids front) :
      Meant identity (front ++ i :: back) (some front.length)
  | byAddress (front : List ServiceInstance) {i : ServiceInstance} (back : List ServiceInstance)
      (unknown : identity.id ∉ ids (front ++ i :: back)) (shares : sharesAddress identity i = true)
      (alone : ∀ j ∈ front ++ back, sharesAddress identity j = false) :
      Meant identity (front ++ i :: back) (some front.length)
  | nobody {l : List ServiceInstance} (unknown : identity.id ∉ ids l)
      (ambiguous : l.countP (sharesAddress identity) ≠ 1) : Meant identity l none

theorem findIdx?_id_eq_none {identity : ProviderIdentity} {l : List ServiceInstance}
    (unknown : identity.id ∉ ids l) : l.findIdx? (·.providerId == identity.id) = none :=
  List.findIdx?_eq_none_iff.mpr fun j hj => by
    have other : j.providerId ≠ identity.id := fun e => unknown (e ▸ mem_ids hj)
    simpa using other

theorem split_of_countP_eq_one {p : ServiceInstance → Bool} {l : List ServiceInstance}
    (h : l.countP p = 1) :
    ∃ front i back, l = front ++ i :: back ∧ p i = true ∧ ∀ j ∈ front ++ back, p j = false := by
  induction l with
  | nil => simp at h
  | cons j l ih =>
    rw [List.countP_cons] at h
    by_cases here : p j = true
    · have none : l.countP p = 0 := by simpa [here] using h
      exact ⟨[], j, l, rfl, here, fun k hk => by simpa using List.countP_eq_zero.mp none k hk⟩
    · obtain ⟨front, i, back, rfl, found, alone⟩ := ih (by simpa [here] using h)
      refine ⟨j :: front, i, back, rfl, found, fun k hk => ?_⟩
      rcases List.mem_cons.mp hk with rfl | hk
      · simpa using here
      · exact alone k hk

theorem countP_eq_one_of_alone {p : ServiceInstance → Bool} {front back : List ServiceInstance}
    {i : ServiceInstance} (found : p i = true) (alone : ∀ j ∈ front ++ back, p j = false) :
    (front ++ i :: back).countP p = 1 := by
  have others : (front ++ back).countP p = 0 :=
    List.countP_eq_zero.mpr fun j hj => by simp [alone j hj]
  rw [List.perm_middle.countP_eq, List.countP_cons_of_pos found, others]

theorem meant_find? (identity : ProviderIdentity) (l : List ServiceInstance) :
    Meant identity l (find? l identity) := by
  unfold find?
  by_cases known : identity.id ∈ ids l
  · obtain ⟨front, i, back, rfl, same, first⟩ := split_of_mem_ids known
    have position := findIdx?_of_split (p := (·.providerId == identity.id)) back
      (beq_iff_eq.mpr same) fun j hj => by
        have other : j.providerId ≠ identity.id := fun e => first (e ▸ mem_ids hj)
        simpa using other
    rw [position]
    exact .byId front back same first
  · rw [findIdx?_id_eq_none known]
    by_cases single : l.countP (sharesAddress identity) = 1
    · obtain ⟨front, i, back, rfl, shares, alone⟩ := split_of_countP_eq_one single
      have position := findIdx?_of_split back shares fun j hj =>
        alone j (List.mem_append_left back hj)
      change Meant identity _ (if List.countP (sharesAddress identity) _ = 1 then
        List.findIdx? (sharesAddress identity) _ else none)
      rw [if_pos single, position]
      exact .byAddress front back known shares alone
    · change Meant identity _ (if List.countP (sharesAddress identity) _ = 1 then
        List.findIdx? (sharesAddress identity) _ else none)
      rw [if_neg single]
      exact .nobody known single

theorem split_of_find? {identity : ProviderIdentity} {l : List ServiceInstance} {n : Nat}
    (h : find? l identity = some n) :
    ∃ front i back, l = front ++ i :: back ∧ front.length = n := by
  have meant := meant_find? identity l
  rw [h] at meant
  cases meant with
  | byId front back => exact ⟨front, _, back, rfl, rfl⟩
  | byAddress front back => exact ⟨front, _, back, rfl, rfl⟩

theorem remove_of_none {l : List ServiceInstance} {identity : ProviderIdentity}
    (h : find? l identity = none) : remove l identity = (l, []) := by
  rw [remove, h]

theorem remove_of_split {front back : List ServiceInstance} {i : ServiceInstance}
    {identity : ProviderIdentity}
    (h : find? (front ++ i :: back) identity = some front.length) :
    remove (front ++ i :: back) identity = (front ++ back, departure i) := by
  rw [remove, h]
  simp [departure, List.eraseIdx_append_of_length_le]

theorem revisions_remove (l : List ServiceInstance) (identity : ProviderIdentity) :
    Revisions l (remove l identity).2 (remove l identity).1 := by
  cases place : find? l identity with
  | none =>
    rw [remove_of_none place]
    exact .none l
  | some n =>
    obtain ⟨front, i, back, rfl, rfl⟩ := split_of_find? place
    rw [remove_of_split place]
    exact (Revision.go front i back).once

def beaten (status : OperationalStatus) (timestampMs : UInt64) (i : ServiceInstance) :
    ServiceInstance :=
  { i with lastHeartbeatMs := some timestampMs, status }

theorem beat_of_none {l : List ServiceInstance} {identity : ProviderIdentity}
    (h : find? l identity = none) (status : OperationalStatus) (timestampMs : UInt64) :
    beat l identity status timestampMs = (l, []) := by
  rw [beat, h]

theorem changesBetween_beaten (old : ServiceInstance) (status : OperationalStatus)
    (timestampMs : UInt64) :
    changesBetween old (beaten status timestampMs old) =
      if old.status = status then []
      else if status.isUp then [.available (beaten status timestampMs old)]
      else [.unavailable (beaten status timestampMs old)] := by
  cases before : old.status <;> cases status <;>
    simp [changesBetween, beaten, ServiceInstance.isUp, before]

theorem beat_of_split {front back : List ServiceInstance} {old : ServiceInstance}
    {identity : ProviderIdentity}
    (h : find? (front ++ old :: back) identity = some front.length) (status : OperationalStatus)
    (timestampMs : UInt64) :
    beat (front ++ old :: back) identity status timestampMs =
      (front ++ beaten status timestampMs old :: back,
        changesBetween old (beaten status timestampMs old)) := by
  rw [beat, h, changesBetween_beaten]
  simp [beaten]

theorem revisions_beat (l : List ServiceInstance) (identity : ProviderIdentity)
    (status : OperationalStatus) (timestampMs : UInt64) :
    Revisions l (beat l identity status timestampMs).2 (beat l identity status timestampMs).1 := by
  cases place : find? l identity with
  | none =>
    rw [beat_of_none place]
    exact .none l
  | some n =>
    obtain ⟨front, old, back, rfl, rfl⟩ := split_of_find? place
    rw [beat_of_split place]
    have same : (beaten status timestampMs old).providerId = old.providerId := rfl
    exact (Revision.alter front back same).once

theorem revisions_filter (stays : ServiceInstance → Bool) (front l : List ServiceInstance) :
    Revisions (front ++ l) ((l.filter fun i => !stays i && i.isUp).map Change.unavailable)
      (front ++ l.filter stays) := by
  induction l generalizing front with
  | nil => exact .none _
  | cons i l ih =>
    cases kept : stays i with
    | true =>
      have rest := ih (front ++ [i])
      simpa [List.filter_cons, kept] using rest
    | false =>
      have rest := Revisions.first (.go front i l) (ih front)
      cases up : i.isUp <;> simpa [List.filter_cons, kept, up, departure] using rest

def putAll (l instances : List ServiceInstance) : List ServiceInstance :=
  instances.foldl (fun l i => (upsert l (normalized i)).1) l

theorem fst_replaceAll (l instances : List ServiceInstance) :
    (replaceAll l instances).1 =
      putAll (l.filter fun old => instances.any (·.providerId == old.providerId)) instances :=
  (List.foldl_hom Prod.fst fun _ _ => rfl).symm

theorem revisions_foldl_upsert (instances : List ServiceInstance)
    (f : ServiceInstance → ServiceInstance) (l : List ServiceInstance) (told : List Change) :
    ∃ cs, (instances.foldl (fun (l, told) i => ((upsert l (f i)).1, told ++ (upsert l (f i)).2))
        (l, told)).2 = told ++ cs ∧
      Revisions l cs (instances.foldl
        (fun (l, told) i => ((upsert l (f i)).1, told ++ (upsert l (f i)).2)) (l, told)).1 := by
  induction instances generalizing l told with
  | nil => exact ⟨[], (List.append_nil told).symm, .none l⟩
  | cons i instances ih =>
    obtain ⟨cs, all, rest⟩ := ih (upsert l (f i)).1 (told ++ (upsert l (f i)).2)
    refine ⟨(upsert l (f i)).2 ++ cs, ?_, .first (revision_upsert l (f i)) rest⟩
    rw [← List.append_assoc]
    exact all

theorem revisions_replaceAll (l instances : List ServiceInstance) :
    Revisions l (replaceAll l instances).2 (replaceAll l instances).1 := by
  have gone := revisions_filter (fun old => instances.any (·.providerId == old.providerId)) [] l
  obtain ⟨cs, told, rest⟩ := revisions_foldl_upsert instances normalized
    (l.filter fun old => instances.any (·.providerId == old.providerId))
    ((l.filter fun old => !(instances.any (·.providerId == old.providerId)) && old.isUp).map
      Change.unavailable)
  have all := gone.trans rest
  rw [← told] at all
  exact all

end ServiceDirectory.InstanceCache
