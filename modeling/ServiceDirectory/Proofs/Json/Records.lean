import Mathlib.Data.List.Nodup
import ServiceDirectory.Json.Record
import ServiceDirectory.Proofs.Json.Reading

/-! What records, tagged choices, lists and optional values are read as when they were put together
from members or parts that are themselves read back. -/
namespace ServiceDirectory.Json

variable {α : Type}

/-! ### Plain values -/

/-- A value of texts and natural numbers that nests no deeper than `n`. Such a value can be
written, read back and kept. -/
structure Plain (n : Nat) (j : Json) : Prop where
  clean : j.every (·.text?.isSome) Number.isWhole = true
  shallow : j.depth ≤ n

theorem Literal.not_control_of_text {s : Literal} (h : s.text?.isSome = true) :
    (!s.control) = true := by
  by_contra raw
  have control : s.control = true := by simpa using raw
  simp [text?, control] at h

theorem Number.inRange_of_isWhole {n : Number} (h : n.isWhole = true) : n.inRange = true := by
  cases n <;> first | rfl | exact absurd h (by decide)

theorem every_imp {literal literal' : Literal → Bool} {number number' : Number → Bool}
    (onLiteral : ∀ s, literal s = true → literal' s = true)
    (onNumber : ∀ n, number n = true → number' n = true) {j : Json}
    (h : j.every literal number = true) : j.every literal' number' = true := by
  induction j using Json.induction with
  | null => rw [every]
  | bool b => rw [every]
  | number n =>
    rw [every] at h ⊢
    exact onNumber n h
  | string s =>
    rw [every] at h ⊢
    exact onLiteral s h
  | array items ih =>
    rw [every, everyItem_eq_all] at h ⊢
    exact List.all_eq_true.mpr fun j hj => ih j hj (List.all_eq_true.mp h j hj)
  | object members ih =>
    rw [every, everyMember_eq_all] at h ⊢
    refine List.all_eq_true.mpr fun m hm => ?_
    have both := List.all_eq_true.mp h m hm
    rw [Bool.and_eq_true] at both ⊢
    exact ⟨onLiteral _ both.1, ih m hm both.2⟩

namespace Plain

variable {n : Nat} {j : Json}

theorem writable (h : Plain n j) : j.writable = true :=
  every_imp (fun _ => Literal.not_control_of_text) (fun _ => id) h.clean

theorem keepable (h : Plain n j) (small : n ≤ maxDepth) : j.keepable = true := by
  rw [Json.keepable, Bool.and_eq_true]
  exact ⟨every_imp (fun _ => id) (fun _ => Number.inRange_of_isWhole) h.clean,
    decide_eq_true (Nat.le_trans h.shallow small)⟩

theorem mono {m : Nat} (h : Plain n j) (le : n ≤ m) : Plain m j :=
  ⟨h.clean, Nat.le_trans h.shallow le⟩

@[simp] theorem null : Plain n .null := ⟨by simp [every], by simp [depth]⟩

@[simp] theorem bool (b : Bool) : Plain n (.bool b) := ⟨by simp [every], by simp [depth]⟩

@[simp] theorem text (s : String) : Plain n (text s) :=
  ⟨by simp [Json.text, every], by simp [Json.text, depth]⟩

theorem natural {k : Nat} (h : k < UInt64.size) : Plain n (natural k) :=
  ⟨by simp [Json.natural, every, Number.isWhole, h], by simp [Json.natural, depth]⟩

@[simp] theorem uint8 (x : UInt8) : Plain n (Json.natural x.toNat) :=
  natural (Nat.lt_trans x.toNat_lt (by decide))

@[simp] theorem uint16 (x : UInt16) : Plain n (Json.natural x.toNat) :=
  natural (Nat.lt_trans x.toNat_lt (by decide))

@[simp] theorem uint32 (x : UInt32) : Plain n (Json.natural x.toNat) :=
  natural (Nat.lt_trans x.toNat_lt (by decide))

@[simp] theorem uint64 (x : UInt64) : Plain n (Json.natural x.toNat) := natural x.toNat_lt

theorem optional {write : α → Json} (h : ∀ a, Plain n (write a)) :
    ∀ o : Option α, Plain n (optional write o)
  | none => null
  | some a => h a

theorem array {items : List Json} (h : ∀ j ∈ items, Plain n j) : Plain (n + 1) (.array items) := by
  constructor
  · rw [every, everyItem_eq_all]
    exact List.all_eq_true.mpr fun j hj => (h j hj).clean
  · rw [depth]
    exact Nat.succ_le_succ (depthOfItems_le_iff.mpr fun j hj => (h j hj).shallow)

theorem record {members : List (String × Json)} (h : ∀ m ∈ members, Plain n m.2) :
    Plain (n + 1) (record members) := by
  constructor
  · rw [Json.record, every, everyMember_eq_all]
    refine List.all_eq_true.mpr fun m hm => ?_
    obtain ⟨e, he, rfl⟩ := List.mem_map.mp hm
    rw [Bool.and_eq_true, Literal.text?_ofString]
    exact ⟨rfl, (h e he).clean⟩
  · rw [Json.record, depth]
    refine Nat.succ_le_succ (depthOfMembers_le_iff.mpr fun m hm => ?_)
    obtain ⟨e, he, rfl⟩ := List.mem_map.mp hm
    exact (h e he).shallow

theorem tagged {members : List (String × Json)} {key tag : String}
    (h : ∀ m ∈ members, Plain n m.2) :
    Plain (n + 1) (Json.record ((key, Json.text tag) :: members)) :=
  record (List.forall_mem_cons.mpr ⟨text tag, h⟩)

end Plain

/-! ### Parts -/

theorem mapM_map_of {β : Type} {write : α → β} {read : β → Option α}
    (h : ∀ a, read (write a) = some a) (l : List α) : (l.map write).mapM read = some l := by
  induction l with
  | nil => rfl
  | cons a l ih => simp [h, ih]

@[simp] theorem list?_array {write : α → Json} {read : Json → Option α}
    (h : ∀ a, read (write a) = some a) (l : List α) :
    list? read (.array (l.map write)) = some l :=
  mapM_map_of h l

theorem optional?_optional {write : α → Json} (read : Json → Option α) (null : read .null = none)
    (h : ∀ a, read (write a) = some a) :
    ∀ o : Option α, optional? read (optional write o) = some o
  | none => rfl
  | some a => by
    have some : write a ≠ .null := fun e => by
      have := h a
      rw [e, null] at this
      exact absurd this (by simp)
    rw [optional, optional?]
    · rw [h a, Option.map_some]
    · exact some

@[simp] theorem uint8?_natural (x : UInt8) : uint8? (natural x.toNat) = some x := by
  have bound : x.toNat ≤ UInt8.size - 1 := Nat.le_pred_of_lt x.toNat_lt
  rw [uint8?, natural?_natural bound, Option.map_some, UInt8.ofNat_toNat]

@[simp] theorem uint16?_natural (x : UInt16) : uint16? (natural x.toNat) = some x := by
  have bound : x.toNat ≤ UInt16.size - 1 := Nat.le_pred_of_lt x.toNat_lt
  rw [uint16?, natural?_natural bound, Option.map_some, UInt16.ofNat_toNat]

@[simp] theorem uint32?_natural (x : UInt32) : uint32? (natural x.toNat) = some x := by
  have bound : x.toNat ≤ UInt32.size - 1 := Nat.le_pred_of_lt x.toNat_lt
  rw [uint32?, natural?_natural bound, Option.map_some, UInt32.ofNat_toNat]

@[simp] theorem uint64?_natural (x : UInt64) : uint64? (natural x.toNat) = some x := by
  have bound : x.toNat ≤ UInt64.size - 1 := Nat.le_pred_of_lt x.toNat_lt
  rw [uint64?, natural?_natural bound, Option.map_some, UInt64.ofNat_toNat]

/-! ### Records -/

@[simp] theorem lookup_cons (name key : String) (a : α) (rest : List (String × α)) :
    ((key, a) :: rest).lookup name = if name = key then some a else rest.lookup name := by
  rw [List.lookup_cons]
  by_cases same : name = key
  · rw [beq_iff_eq.mpr same, if_pos same]
  · rw [beq_eq_false_iff_ne.mpr same, if_neg same]

namespace Record

theorem named?_map (members : List (String × Json)) :
    named? (members.map fun m => (.ofString m.1, m.2)) = some members :=
  mapM_map_of (fun m => by simp) members

@[simp] theorem ofJson?_record {names : List String} {members : List (String × Json)}
    (keys : members.map (·.1) = names) (distinct : names.Nodup) :
    ofJson? names (record members) = some ⟨false, members⟩ := by
  have known (m) (hm : m ∈ members) : names.contains m.1 = true := by
    rw [List.contains_iff_mem, ← keys]
    exact List.mem_map_of_mem hm
  have split : members.partition (fun m => names.contains m.1) = (members, []) := by
    rw [List.partition_eq_filter_filter, List.filter_eq_self.mpr known]
    exact congrArg _ (List.filter_eq_nil_iff.mpr fun m hm => by simpa using known m hm)
  have once : (names.all fun n => (members.filter (·.1 == n)).length ≤ 1) = true := by
    refine List.all_eq_true.mpr fun n _ => decide_eq_true ?_
    have count := List.nodup_iff_count_le_one.mp distinct n
    rw [← keys, List.count, List.countP_map] at count
    rwa [← List.countP_eq_length_filter]
  rw [record, ofJson?, named?_map, Option.bind_eq_bind, Option.bind_some]
  dsimp only
  rw [split]
  exact (guard_bind once _).trans rfl

@[simp] theorem required?_mk (p : Bool) (fields : List (String × Json)) (name : String)
    (read : Json → Option α) : required? ⟨p, fields⟩ name read = (fields.lookup name).bind read :=
  rfl

@[simp] theorem defaulted?_mk (p : Bool) (fields : List (String × Json)) (name : String)
    (default : α) (read : Json → Option α) :
    defaulted? ⟨p, fields⟩ name default read =
      ((fields.lookup name).map read).getD (some default) := by
  rw [defaulted?, field?]
  cases fields.lookup name <;> rfl

@[simp] theorem optional?_mk (fields : List (String × Json)) (name : String)
    (read : Json → Option α) : optional? ⟨false, fields⟩ name read =
      ((fields.lookup name).map (·.optional? read)).getD (some none) := by
  rw [optional?, field?]
  cases fields.lookup name <;> rfl

end Record

/-! ### Tagged choices -/

@[simp] theorem Tagged.ofJson?_record {key : String} {tag : Json} {members : List (String × Json)}
    (h : ∀ m ∈ members, m.1 ≠ key) :
    Tagged.ofJson? key (record ((key, tag) :: members)) = some ⟨tag, record members⟩ := by
  have other (m) (hm : m ∈ members.map fun m => (Literal.ofString m.1, m.2)) :
      m.1 ≠ .ofString key := by
    obtain ⟨e, he, rfl⟩ := List.mem_map.mp hm
    exact fun same => h e he (Literal.ofString_inj.mp same)
  have others : (members.map fun m => (Literal.ofString m.1, m.2)).filter
      (·.1 != .ofString key) = members.map fun m => (Literal.ofString m.1, m.2) :=
    List.filter_eq_self.mpr fun m hm => by simpa using other m hm
  have none : (members.map fun m => (Literal.ofString m.1, m.2)).filter
      (·.1 == .ofString key) = [] :=
    List.filter_eq_nil_iff.mpr fun m hm => by simpa using other m hm
  rw [record, List.map_cons, Tagged.ofJson?, List.filter_cons, List.filter_cons, others, none]
  simp [record]

@[simp] theorem Tagged.choice?_text (kept : Bool) (names : List (String × α)) (s : String)
    (rest : Json) : Tagged.choice? kept names ⟨text s, rest⟩ = names.lookup s := by
  simp [Tagged.choice?, text]

@[simp] theorem choice?_text (kept : Bool) (names : List (String × α)) (s : String) :
    choice? kept names (text s) = names.lookup s := by
  simp [choice?, name?, text]

end ServiceDirectory.Json
