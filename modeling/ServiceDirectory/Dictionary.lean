/-! Finite maps with string keys, kept as a list of pairs in strictly rising key order. The order
is part of the type, so two dictionaries with the same entries are equal, however they were
built. -/
namespace ServiceDirectory

/-- A finite map; `sorted` says that its keys rise strictly. -/
structure Dictionary (α : Type) where
  entries : List (String × α) := []
  sorted : entries.Pairwise (·.1 < ·.1) := by exact List.Pairwise.nil

namespace Dictionary

variable {α β : Type}

instance [DecidableEq α] : DecidableEq (Dictionary α) := fun d e =>
  decidable_of_iff (d.entries = e.entries)
    ⟨fun h => by cases d; cases e; cases h; rfl, fun h => h ▸ rfl⟩

def empty : Dictionary α := {}

instance : Inhabited (Dictionary α) := ⟨empty⟩

theorem ext {d e : Dictionary α} (h : d.entries = e.entries) : d = e := by
  cases d; cases e; cases h; rfl

def isEmpty (d : Dictionary α) : Bool := d.entries.isEmpty

def size (d : Dictionary α) : Nat := d.entries.length

def keys (d : Dictionary α) : List String := d.entries.map (·.1)

/-- The value of the first pair with a key. -/
def search (k : String) : List (String × α) → Option α
  | [] => none
  | e :: rest => if e.1 = k then some e.2 else search k rest

def get? (d : Dictionary α) (k : String) : Option α := search k d.entries

/-- Puts a pair into a rising list at its place; a pair with the same key gives way. -/
def place (k : String) (v : α) : List (String × α) → List (String × α)
  | [] => [(k, v)]
  | e :: rest =>
    if k < e.1 then (k, v) :: e :: rest
    else if e.1 < k then e :: place k v rest
    else (k, v) :: rest

theorem mem_place {k : String} {v : α} {l : List (String × α)} {p : String × α}
    (h : p ∈ place k v l) : p = (k, v) ∨ p ∈ l := by
  induction l with
  | nil => exact .inl (by simpa [place] using h)
  | cons e rest ih =>
    simp only [place] at h
    split at h
    · simpa [List.mem_cons] using h
    · split at h
      · rcases List.mem_cons.mp h with h | h
        · exact .inr (h ▸ List.mem_cons_self)
        · exact (ih h).imp_right (List.mem_cons_of_mem e)
      · rcases List.mem_cons.mp h with h | h
        · exact .inl h
        · exact .inr (List.mem_cons_of_mem e h)

theorem key_eq_of_not_lt {k l : String} (h : ¬ k < l) (h' : ¬ l < k) : k = l :=
  String.le_antisymm (String.not_lt.mp h') (String.not_lt.mp h)

theorem place_sorted (k : String) (v : α) {l : List (String × α)}
    (h : l.Pairwise (·.1 < ·.1)) : (place k v l).Pairwise (·.1 < ·.1) := by
  induction l with
  | nil => simp [place]
  | cons e rest ih =>
    obtain ⟨he, hrest⟩ := List.pairwise_cons.mp h
    simp only [place]
    split
    · rename_i hlt
      refine List.pairwise_cons.mpr ⟨fun p hp => ?_, h⟩
      rcases List.mem_cons.mp hp with hp | hp
      · exact hp ▸ hlt
      · exact String.lt_trans hlt (he p hp)
    · rename_i hnlt
      split
      · rename_i hlt
        refine List.pairwise_cons.mpr ⟨fun p hp => ?_, ih hrest⟩
        rcases mem_place hp with hp | hp
        · exact hp ▸ hlt
        · exact he p hp
      · rename_i hnlt'
        have hk := key_eq_of_not_lt hnlt hnlt'
        exact List.pairwise_cons.mpr ⟨fun p hp => hk ▸ he p hp, hrest⟩

/-- Sets the value of a key. -/
def insert (d : Dictionary α) (k : String) (v : α) : Dictionary α :=
  ⟨place k v d.entries, place_sorted k v d.sorted⟩

/-- Removes a key. -/
def erase (d : Dictionary α) (k : String) : Dictionary α :=
  ⟨d.entries.filter (·.1 != k), d.sorted.filter _⟩

/-- Sets the keys of a list of pairs one after the other, so the last value of a key stays. -/
def ofList (l : List (String × α)) : Dictionary α :=
  l.foldl (fun d p => d.insert p.1 p.2) empty

def contains (d : Dictionary α) (k : String) : Bool := (d.get? k).isSome

@[simp] theorem get?_empty (k : String) : (empty : Dictionary α).get? k = none := rfl

theorem search_place (k j : String) (v : α) (l : List (String × α)) :
    search j (place k v l) = if j = k then some v else search j l := by
  induction l with
  | nil => simp [place, search, eq_comm]
  | cons e rest ih =>
    simp only [place]
    split
    · simp [search, eq_comm]
    · split
      · rename_i hlt
        have hne : e.1 ≠ k := fun h => String.lt_irrefl k (h ▸ hlt)
        simp only [search, ih]
        by_cases hj : j = k
        · simp [hj, hne]
        · simp [hj]
      · rename_i h1 h2
        have hk := key_eq_of_not_lt h1 h2
        by_cases hj : j = k
        · simp [search, hj]
        · have : ¬ k = j := fun h => hj h.symm
          simp [search, hj, this, ← hk]

theorem get?_insert (d : Dictionary α) (k j : String) (v : α) :
    (d.insert k v).get? j = if j = k then some v else d.get? j :=
  search_place k j v d.entries

theorem search_filter_ne (k j : String) (l : List (String × α)) :
    search j (l.filter (·.1 != k)) = if j = k then none else search j l := by
  induction l with
  | nil => simp [search]
  | cons e rest ih =>
    by_cases hk : e.1 = k
    · have : (e.1 != k) = false := by simp [hk]
      rw [List.filter_cons, this]
      simp only [Bool.false_eq_true, if_false, ih, search, hk]
      by_cases hj : j = k
      · simp [hj]
      · have : ¬ k = j := fun h => hj h.symm
        simp [hj, this]
    · have : (e.1 != k) = true := by simp [hk]
      rw [List.filter_cons, this]
      simp only [if_true, search, ih]
      by_cases hj : j = k
      · simp [hj, hk]
      · simp [hj]

theorem get?_erase (d : Dictionary α) (k j : String) :
    (d.erase k).get? j = if j = k then none else d.get? j :=
  search_filter_ne k j d.entries

end Dictionary
end ServiceDirectory
