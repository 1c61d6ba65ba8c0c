/-! Decimal numerals. `digits` writes a natural number with its most significant digit first and
without leading zeros; `value` reads a row of digits back, leading zeros allowed. The readers on
characters accept the digits 0 to 9 of the basic alphabet and no others. -/
namespace ServiceDirectory.Decimal

/-- The digits of a number, most significant first. -/
def digits (n : Nat) : List Nat :=
  if n < 10 then [n] else digits (n / 10) ++ [n % 10]
termination_by n

/-- The number that a row of digits stands for. -/
def value (ds : List Nat) : Nat := ds.foldl (fun n d => 10 * n + d) 0

theorem value_append_digit (ds : List Nat) (d : Nat) : value (ds ++ [d]) = 10 * value ds + d := by
  simp [value]

theorem value_digits (n : Nat) : value (digits n) = n := by
  fun_induction digits n with
  | case1 n h => simp [value]
  | case2 n h ih => rw [value_append_digit, ih]; omega

theorem digits_lt_ten (n : Nat) : ∀ d ∈ digits n, d < 10 := by
  fun_induction digits n with
  | case1 n h => simpa using h
  | case2 n h ih =>
    intro d hd
    rcases List.mem_append.mp hd with hd | hd
    · exact ih d hd
    · simp only [List.mem_singleton] at hd
      omega

theorem digits_ne_nil (n : Nat) : digits n ≠ [] := by
  unfold digits
  split <;> simp

/-- A number below a power of ten has no more digits than that. -/
theorem length_digits_le {n k : Nat} (h : n < Nat.pow 10 (k + 1)) :
    (digits n).length ≤ k + 1 := by
  induction k generalizing n with
  | zero =>
    have digit : n < 10 := h
    unfold digits
    rw [if_pos digit]
    exact Nat.le_refl 1
  | succ k ih =>
    unfold digits
    split
    · simp
    · have less : n / 10 < Nat.pow 10 (k + 1) := Nat.div_lt_of_lt_mul (Nat.mul_comm _ 10 ▸ h)
      have shorter := ih less
      rw [List.length_append, List.length_singleton]
      omega

/-- The character of a digit. -/
def digitChar (d : Nat) : Char := Char.ofNat (48 + d)

/-- The digit that a character stands for. -/
def digit? (c : Char) : Option Nat :=
  if '0' ≤ c ∧ c ≤ '9' then some (c.toNat - 48) else none

theorem digit?_digitChar {d : Nat} (h : d < 10) : digit? (digitChar d) = some d := by
  have : d = 0 ∨ d = 1 ∨ d = 2 ∨ d = 3 ∨ d = 4 ∨ d = 5 ∨ d = 6 ∨ d = 7 ∨ d = 8 ∨ d = 9 := by
    omega
  rcases this with h | h | h | h | h | h | h | h | h | h <;> subst h <;> decide

def isDigit (c : Char) : Bool := (digit? c).isSome

/-- A number as text. -/
def text (n : Nat) : List Char := (digits n).map digitChar

/-- A number as a string. -/
def string (n : Nat) : String := String.ofList (text n)

/-- Reads one or more digits that fill the whole text. -/
def read? (s : List Char) : Option Nat :=
  if s.isEmpty then none else (s.mapM digit?).map value

/-- Reads digits whose number is at most `limit`. -/
def atMost? (limit : Nat) (s : List Char) : Option Nat :=
  (read? s).filter (· ≤ limit)

/-- Reads digits whose number is at most `limit`, after one plus sign at most. -/
def signedAtMost? (limit : Nat) : List Char → Option Nat
  | '+' :: s => atMost? limit s
  | s => atMost? limit s

end ServiceDirectory.Decimal
