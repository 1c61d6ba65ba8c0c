import ServiceDirectory.Failure
import ServiceDirectory.Text.Blank

/-! Reading endpoints. The blank characters around the text do not count. A host in brackets ends
at the first closing bracket; any other host ends at the last colon and has no colon in it. -/
namespace ServiceDirectory.Endpoint

/-- Splits a text at the first `c`. -/
def splitFirst (c : Char) : List Char → Option (List Char × List Char)
  | [] => none
  | d :: s => if d = c then some ([], s) else (splitFirst c s).map fun p => (d :: p.1, p.2)

/-- Splits a text at the last `c`. -/
def splitLast (c : Char) (s : List Char) : Option (List Char × List Char) :=
  (splitFirst c s.reverse).map fun p => (p.2.reverse, p.1.reverse)

theorem splitFirst_eq_some_iff {c : Char} {s a b : List Char} :
    splitFirst c s = some (a, b) ↔ s = a ++ c :: b ∧ c ∉ a := by
  induction s generalizing a with
  | nil => simp [splitFirst]
  | cons d s ih =>
    simp only [splitFirst]
    split
    · rename_i h
      subst h
      constructor
      · intro h
        simp only [Option.some.injEq, Prod.mk.injEq] at h
        simp [← h.1, ← h.2]
      · rintro ⟨h, ha⟩
        cases a with
        | nil => simpa [eq_comm] using h
        | cons x a =>
          simp only [List.cons_append, List.cons.injEq] at h
          exact absurd (h.1 ▸ List.mem_cons_self) ha
    · rename_i hd
      simp only [Option.map_eq_some_iff, Prod.mk.injEq, Prod.exists]
      constructor
      · rintro ⟨x, y, h, rfl, rfl⟩
        obtain ⟨rfl, hx⟩ := ih.mp h
        refine ⟨by simp, fun hm => ?_⟩
        rcases List.mem_cons.mp hm with hm | hm
        · exact hd hm.symm
        · exact hx hm
      · rintro ⟨h, ha⟩
        cases a with
        | nil =>
          simp only [List.nil_append, List.cons.injEq] at h
          exact absurd h.1 hd
        | cons x a =>
          simp only [List.cons_append, List.cons.injEq] at h
          refine ⟨a, b, ih.mpr ⟨h.2, fun hm => ha (List.mem_cons_of_mem x hm)⟩, ?_, rfl⟩
          rw [h.1]

theorem splitLast_eq_some_iff {c : Char} {s a b : List Char} :
    splitLast c s = some (a, b) ↔ s = a ++ c :: b ∧ c ∉ b := by
  simp only [splitLast, Option.map_eq_some_iff, Prod.mk.injEq, Prod.exists,
    splitFirst_eq_some_iff]
  constructor
  · rintro ⟨x, y, ⟨h, hx⟩, rfl, rfl⟩
    have := congrArg List.reverse h
    simp only [List.reverse_reverse, List.reverse_append, List.reverse_cons,
      List.append_assoc] at this
    exact ⟨by simpa using this, by simpa using hx⟩
  · rintro ⟨rfl, hb⟩
    exact ⟨b.reverse, a.reverse, ⟨by simp, by simpa using hb⟩, by simp, by simp⟩

/-- Host and port text. -/
def parts? : List Char → Option (List Char × List Char)
  | '[' :: s =>
    match splitFirst ']' s with
    | some (host, ':' :: port) => some (host, port)
    | _ => none
  | s => (splitLast ':' s).filter fun p => ':' ∉ p.1

/-- The largest port. -/
def maxPort : Nat := 65535

/-- Reads a text without blanks around it. -/
def ofChars? (s : List Char) : Option Endpoint := do
  let (host, port) ← parts? s
  guard (!host.isEmpty)
  let n ← Decimal.signedAtMost? maxPort port
  return ⟨String.ofList host, UInt16.ofNat n⟩

/-- Reads an endpoint. -/
def parse (s : String) : Except Failure Endpoint :=
  match ofChars? (Text.trim s.toList) with
  | some e => .ok e
  | none => .error (.invalidEndpoint (Text.trimmed s))

end ServiceDirectory.Endpoint
