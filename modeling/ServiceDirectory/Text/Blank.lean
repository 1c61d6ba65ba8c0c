/-! Blank characters, by the Unicode property White_Space, and the trimming of a text at both
ends. Texts are lists of characters here; callers convert at their own boundary. -/
namespace ServiceDirectory.Text

/-- The twenty-five characters that have the property White_Space. -/
def isBlank (c : Char) : Bool :=
  let n := c.toNat
  (0x9 ≤ n && n ≤ 0xD) || n == 0x20 || n == 0x85 || n == 0xA0 || n == 0x1680 ||
    (0x2000 ≤ n && n ≤ 0x200A) || n == 0x2028 || n == 0x2029 || n == 0x202F ||
    n == 0x205F || n == 0x3000

/-- Drops blank characters from the front. -/
def trimLeft (s : List Char) : List Char := s.dropWhile isBlank

/-- Drops blank characters from both ends. -/
def trim (s : List Char) : List Char := (trimLeft (trimLeft s).reverse).reverse

theorem trimLeft_of_head {c : Char} {s : List Char} (h : isBlank c = false) :
    trimLeft (c :: s) = c :: s := by
  simp [trimLeft, h]

theorem trimLeft_head (s : List Char) : ∀ c ∈ (trimLeft s).head?, isBlank c = false := by
  intro c hc
  have h := List.head?_dropWhile_not isBlank s
  unfold trimLeft at hc
  rw [Option.mem_def] at hc
  rw [hc] at h
  simpa using h

/-- Drops blank characters from both ends of a string. -/
def trimmed (s : String) : String := String.ofList (trim s.toList)

end ServiceDirectory.Text
