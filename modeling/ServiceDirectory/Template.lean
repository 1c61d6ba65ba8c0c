import ServiceDirectory.Text.Decimal

/-! Message templates. A placeholder is an opening brace, one or more digits, and a closing
brace; it stands for the parameter with that number. A placeholder without a parameter, and every
other character, stands for itself, and text that was put in is not looked at again. -/
namespace ServiceDirectory.Template

/-- The digits at the front of a text. -/
def leadingDigits (s : List Char) : List Char := s.takeWhile Decimal.isDigit

/-- After an opening brace: the number of the placeholder and the text behind it. -/
def placeholder? (s : List Char) : Option (Nat × { rest : List Char // rest.length < s.length }) :=
  match h : s.dropWhile Decimal.isDigit with
  | '}' :: rest =>
    (Decimal.read? (leadingDigits s)).map fun n =>
      (n, ⟨rest, by
        have := List.Sublist.length_le (List.dropWhile_sublist Decimal.isDigit (l := s))
        rw [h, List.length_cons] at this
        omega⟩)
  | _ => none

/-- Puts the parameters into a template. -/
def renderChars (params : List String) : List Char → List Char
  | [] => []
  | c :: s =>
    if c = '{' then
      match placeholder? s with
      | some (n, rest) =>
        match params[n]? with
        | some p => p.toList ++ renderChars params rest.1
        | none => '{' :: renderChars params s
      | none => '{' :: renderChars params s
    else c :: renderChars params s
termination_by s => s.length
decreasing_by
  · simp only [List.length_cons]; have := rest.2; omega
  all_goals simp

/-- Puts the parameters into the template of a message. -/
def render (template : String) (params : List String) : String :=
  String.ofList (renderChars params template.toList)

@[simp] theorem renderChars_nil (params : List String) : renderChars params [] = [] := by
  simp [renderChars]

theorem renderChars_of_ne {c : Char} (h : c ≠ '{') (params : List String) (s : List Char) :
    renderChars params (c :: s) = c :: renderChars params s := by
  rw [renderChars, if_neg h]

theorem renderChars_append_of_no_brace {a : List Char} (h : '{' ∉ a) (params : List String)
    (s : List Char) : renderChars params (a ++ s) = a ++ renderChars params s := by
  induction a with
  | nil => rfl
  | cons c a ih =>
    have other : c ≠ '{' := fun same => h (same ▸ List.mem_cons_self)
    rw [List.cons_append, renderChars_of_ne other, ih fun e => h (List.mem_cons_of_mem c e),
      List.cons_append]

end ServiceDirectory.Template
