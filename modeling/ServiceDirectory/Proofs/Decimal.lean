import Mathlib.Data.Option.Basic
import ServiceDirectory.Text.Decimal

/-! What is read as a number: every row of digits, with leading zeros or without, stands for the
number that it is the value of, and no other text stands for a number. -/
namespace ServiceDirectory.Decimal

theorem digit?_eq_some_iff {c : Char} {d : Nat} : digit? c = some d ↔ d < 10 ∧ digitChar d = c := by
  constructor
  · intro read
    rw [digit?, Option.ite_none_right_eq_some, Option.some.injEq] at read
    obtain ⟨⟨low, high⟩, rfl⟩ := read
    have least : 48 ≤ c.toNat := low
    have most : c.toNat ≤ 57 := high
    refine ⟨by omega, ?_⟩
    rw [digitChar, Nat.add_sub_cancel' least, Char.ofNat_toNat]
  · rintro ⟨small, rfl⟩
    exact digit?_digitChar small

theorem mapM_digit?_eq_some_iff {s : List Char} {ds : List Nat} :
    s.mapM digit? = some ds ↔ (∀ d ∈ ds, d < 10) ∧ ds.map digitChar = s := by
  induction s generalizing ds with
  | nil =>
    constructor
    · intro read
      obtain rfl : [] = ds := Option.some.inj read
      exact ⟨List.forall_mem_nil _, rfl⟩
    · rintro ⟨-, same⟩
      rw [List.map_eq_nil_iff.mp same]
      rfl
  | cons c s ih =>
    simp only [List.mapM_cons, Option.bind_eq_bind, Option.bind_eq_some_iff, ih, Option.pure_def,
      Option.some.injEq, digit?_eq_some_iff]
    constructor
    · rintro ⟨d, ⟨small, rfl⟩, ds, ⟨rest, rfl⟩, rfl⟩
      exact ⟨List.forall_mem_cons.mpr ⟨small, rest⟩, rfl⟩
    · rintro ⟨small, same⟩
      obtain ⟨d, ds, rfl, rfl, rfl⟩ := List.map_eq_cons_iff.mp same
      rw [List.forall_mem_cons] at small
      exact ⟨d, ⟨small.1, rfl⟩, ds, ⟨small.2, rfl⟩, rfl⟩

theorem read?_eq_some_iff {s : List Char} {n : Nat} :
    read? s = some n ↔
      ∃ ds, ds ≠ [] ∧ (∀ d ∈ ds, d < 10) ∧ ds.map digitChar = s ∧ value ds = n := by
  rw [read?, Option.ite_none_left_eq_some, Option.map_eq_some_iff]
  simp only [mapM_digit?_eq_some_iff, and_assoc, List.isEmpty_iff]
  constructor
  · rintro ⟨some, ds, small, rfl, same⟩
    exact ⟨ds, fun none => some (by rw [none]; rfl), small, rfl, same⟩
  · rintro ⟨ds, some, small, rfl, same⟩
    exact ⟨fun none => some (List.map_eq_nil_iff.mp none), ds, small, rfl, same⟩

theorem atMost?_eq_some_iff {limit n : Nat} {s : List Char} :
    atMost? limit s = some n ↔ read? s = some n ∧ n ≤ limit := by
  rw [atMost?, Option.filter_eq_some_iff, decide_eq_true_iff]

theorem isDigit_digitChar {d : Nat} (small : d < 10) : isDigit (digitChar d) = true := by
  rw [isDigit, digit?_digitChar small]
  rfl

theorem notMem_map_digitChar {c : Char} (other : digit? c = none) {ds : List Nat}
    (small : ∀ d ∈ ds, d < 10) : c ∉ ds.map digitChar := by
  intro mem
  obtain ⟨d, hd, same⟩ := List.mem_map.mp mem
  have read : digit? c = some d := digit?_eq_some_iff.mpr ⟨small d hd, same⟩
  exact absurd (other.symm.trans read) (Option.some_ne_none d).symm

theorem signedAtMost?_eq_some_iff {limit n : Nat} {s : List Char} :
    signedAtMost? limit s = some n ↔ ∃ ds, ds ≠ [] ∧ (∀ d ∈ ds, d < 10) ∧
      (s = ds.map digitChar ∨ s = '+' :: ds.map digitChar) ∧ value ds = n ∧ n ≤ limit := by
  constructor
  · intro read
    unfold signedAtMost? at read
    split at read
    · obtain ⟨numeral, limited⟩ := atMost?_eq_some_iff.mp read
      obtain ⟨ds, some_digit, small, rfl, value⟩ := read?_eq_some_iff.mp numeral
      exact ⟨ds, some_digit, small, .inr rfl, value, limited⟩
    · obtain ⟨numeral, limited⟩ := atMost?_eq_some_iff.mp read
      obtain ⟨ds, some_digit, small, rfl, value⟩ := read?_eq_some_iff.mp numeral
      exact ⟨ds, some_digit, small, .inl rfl, value, limited⟩
  · rintro ⟨ds, some_digit, small, written, value, limited⟩
    have numeral : atMost? limit (ds.map digitChar) = some n :=
      atMost?_eq_some_iff.mpr ⟨read?_eq_some_iff.mpr ⟨ds, some_digit, small, rfl, value⟩, limited⟩
    rcases written with rfl | rfl
    · unfold signedAtMost?
      split
      · -- A plus sign is no digit.
        rename_i s signed
        exact absurd (signed ▸ List.mem_cons_self) (notMem_map_digitChar (c := '+') rfl small)
      · exact numeral
    · exact numeral

end ServiceDirectory.Decimal
