import Mathlib.Data.List.TakeWhile
import ServiceDirectory.Text.Blank

/-! Trimming leaves the one text that has no blank at either end and nothing but blanks around
it. -/
namespace ServiceDirectory.Text

/-- A text is another one without the blank characters at its ends. -/
structure Trims (s t : List Char) : Prop where
  around : ∃ a b, s = a ++ t ++ b ∧ (∀ c ∈ a, isBlank c = true) ∧ ∀ c ∈ b, isBlank c = true
  head : ∀ c ∈ t.head?, isBlank c = false
  last : ∀ c ∈ t.getLast?, isBlank c = false

theorem trimLeft_append_of_blank {a : List Char} (blank : ∀ c ∈ a, isBlank c = true)
    (s : List Char) : trimLeft (a ++ s) = trimLeft s :=
  List.dropWhile_append_of_pos blank

theorem trimLeft_eq_self {s : List Char} (h : ∀ c ∈ s.head?, isBlank c = false) :
    trimLeft s = s := by
  cases s with
  | nil => rfl
  | cons c s => exact trimLeft_of_head (h c rfl)

theorem exists_trimLeft (s : List Char) :
    ∃ a, s = a ++ trimLeft s ∧ ∀ c ∈ a, isBlank c = true :=
  ⟨s.takeWhile isBlank, List.takeWhile_append_dropWhile.symm, fun _ => List.mem_takeWhile_imp⟩

theorem trims_trim (s : List Char) : Trims s (trim s) := by
  obtain ⟨a, front, blank⟩ := exists_trimLeft s
  obtain ⟨b, back, blank'⟩ := exists_trimLeft (trimLeft s).reverse
  have split : trimLeft s = trim s ++ b.reverse := by
    rw [trim, ← List.reverse_append, ← back, List.reverse_reverse]
  refine ⟨⟨a, b.reverse, ?_, blank, fun c hc => blank' c (List.mem_reverse.mp hc)⟩,
    fun c hc => ?_, fun c hc => ?_⟩
  · rw [List.append_assoc, ← split]
    exact front
  · -- What trimming leaves at the front is in front of the blanks at the end as well.
    refine trimLeft_head s c ?_
    rw [split, List.head?_append]
    exact Option.mem_def.mpr (by rw [Option.mem_def.mp hc, Option.some_or])
  · rw [trim, List.getLast?_reverse] at hc
    exact trimLeft_head _ c hc

theorem trims_iff {s t : List Char} : Trims s t ↔ t = trim s := by
  constructor
  · rintro ⟨⟨a, b, rfl, blank, blank'⟩, head, last⟩
    have front : trimLeft (a ++ t ++ b) = trimLeft (t ++ b) := by
      rw [List.append_assoc, trimLeft_append_of_blank blank]
    cases t with
    | nil =>
      have none : trimLeft b = [] := by
        rw [← List.append_nil b, trimLeft_append_of_blank blank']
        rfl
      rw [trim, front, List.nil_append, none]
      rfl
    | cons c t =>
      have back : ∀ c ∈ b.reverse, isBlank c = true :=
        fun c hc => blank' c (List.mem_reverse.mp hc)
      rw [trim, front, List.cons_append, trimLeft_of_head (head c rfl), ← List.cons_append,
        List.reverse_append, trimLeft_append_of_blank back,
        trimLeft_eq_self (List.head?_reverse ▸ last), List.reverse_reverse]
  · rintro rfl
    exact trims_trim s

end ServiceDirectory.Text
