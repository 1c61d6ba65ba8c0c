import Mathlib.Data.List.Induction
import ServiceDirectory.Dictionary

/-! Dictionaries by what their keys are mapped to. Two of them with the same values are equal, so
the order in which entries were set, or in which they are listed, leaves no trace. -/
namespace ServiceDirectory.Dictionary

variable {α : Type}

def DistinctKeys (l : List (String × α)) : Prop := l.Pairwise (·.1 ≠ ·.1)

theorem DistinctKeys.nodup {l : List (String × α)} (h : DistinctKeys l) : l.Nodup :=
  h.imp fun other same => other (congrArg Prod.fst same)

theorem DistinctKeys.perm {l m : List (String × α)} (h : DistinctKeys l) (p : l.Perm m) :
    DistinctKeys m :=
  (p.pairwise_iff fun other => Ne.symm other).mp h

theorem distinctKeys_entries (d : Dictionary α) : DistinctKeys d.entries := by
  refine d.sorted.imp fun {e f} less same => ?_
  rw [same] at less
  exact String.lt_irrefl _ less

theorem search_eq_some_iff {k : String} {v : α} {l : List (String × α)} (h : DistinctKeys l) :
    search k l = some v ↔ (k, v) ∈ l := by
  induction l with
  | nil => simp [search]
  | cons e rest ih =>
    obtain ⟨fresh, distinct⟩ := List.pairwise_cons.mp h
    obtain ⟨key, value⟩ := e
    by_cases same : key = k
    · subst same
      have absent : (key, v) ∉ rest := fun hm => fresh _ hm rfl
      simp [search, absent, eq_comm]
    · have other : k ≠ key := fun e => same e.symm
      simp [search, same, other, ih distinct]

theorem search_perm {k : String} {l m : List (String × α)} (h : DistinctKeys l) (p : l.Perm m) :
    search k l = search k m := by
  apply Option.ext
  intro v
  rw [search_eq_some_iff h, search_eq_some_iff (h.perm p), p.mem_iff]

theorem get?_eq_some_iff {d : Dictionary α} {k : String} {v : α} :
    d.get? k = some v ↔ (k, v) ∈ d.entries :=
  search_eq_some_iff d.distinctKeys_entries

theorem ext_get? {d e : Dictionary α} (h : ∀ k, d.get? k = e.get? k) : d = e := by
  have members (p : String × α) : p ∈ d.entries ↔ p ∈ e.entries := by
    rw [← get?_eq_some_iff, ← get?_eq_some_iff, h]
  have perm : d.entries.Perm e.entries :=
    (List.perm_ext_iff_of_nodup d.distinctKeys_entries.nodup e.distinctKeys_entries.nodup).mpr
      members
  refine ext (perm.eq_of_pairwise (fun a b _ _ ab ba => ?_) d.sorted e.sorted)
  exact absurd (String.lt_trans ab ba) (String.lt_irrefl _)

theorem insert_eq_self {d : Dictionary α} {k : String} {v : α} (h : d.get? k = some v) :
    d.insert k v = d := by
  refine ext_get? fun j => ?_
  rw [get?_insert]
  split
  · rename_i same
    rw [same, h]
  · rfl

theorem get?_foldl_insert (l : List (String × α)) (d : Dictionary α) (k : String) :
    (l.foldl (fun d p => d.insert p.1 p.2) d).get? k = (search k l.reverse).or (d.get? k) := by
  induction l using List.reverseRecOn with
  | nil => simp [search]
  | append_singleton l p ih =>
    rw [List.foldl_append, List.foldl_cons, List.foldl_nil, get?_insert, ih, List.reverse_concat,
      search]
    by_cases same : k = p.1
    · simp [same]
    · rw [if_neg same, if_neg fun e => same e.symm]

theorem ofList_of_perm {d : Dictionary α} {l : List (String × α)} (h : l.Perm d.entries) :
    ofList l = d := by
  refine ext_get? fun k => ?_
  have found : search k l.reverse = search k d.entries :=
    (search_perm d.distinctKeys_entries (h.symm.trans l.reverse_perm.symm)).symm
  rw [ofList, get?_foldl_insert, get?_empty, Option.or_none, found]
  rfl

end ServiceDirectory.Dictionary
