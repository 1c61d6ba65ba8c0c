import ServiceDirectory.Proofs.Decimal
import ServiceDirectory.Template

/-! How a template is read. From left to right it falls into placeholders and single characters in
one way, whatever the parameters are; its rendering puts the text of each piece in its place. -/
namespace ServiceDirectory.Template

/-- A placeholder by the digits between its braces, which may begin with zeros. -/
structure Placeholder where
  digits : List Nat
  some_digit : digits ≠ []
  small : ∀ d ∈ digits, d < 10

namespace Placeholder

def number (p : Placeholder) : Nat := Decimal.value p.digits

def numeral (p : Placeholder) : List Char := p.digits.map Decimal.digitChar

def text (p : Placeholder) : List Char := '{' :: p.numeral ++ ['}']

def ofNumeral? (s : List Char) : Option Placeholder :=
  (s.mapM Decimal.digit?).bind fun ds =>
    if h : ds ≠ [] ∧ ∀ d ∈ ds, d < 10 then some ⟨ds, h.1, h.2⟩ else none

def read? : List Char → Option (Placeholder × List Char)
  | '{' :: s =>
    match s.dropWhile Decimal.isDigit with
    | '}' :: rest => (ofNumeral? (leadingDigits s)).map fun p => (p, rest)
    | _ => none
  | _ => none

theorem ofNumeral?_eq_some_iff {s : List Char} {p : Placeholder} :
    ofNumeral? s = some p ↔ p.numeral = s := by
  simp only [ofNumeral?, Option.bind_eq_some_iff, Decimal.mapM_digit?_eq_some_iff]
  constructor
  · rintro ⟨ds, ⟨-, rfl⟩, read⟩
    split at read
    · obtain rfl := Option.some.inj read
      rfl
    · cases read
  · rintro rfl
    exact ⟨p.digits, ⟨p.small, rfl⟩, dif_pos ⟨p.some_digit, p.small⟩⟩

theorem read?_numeral (p : Placeholder) : Decimal.read? p.numeral = some p.number :=
  Decimal.read?_eq_some_iff.mpr ⟨p.digits, p.some_digit, p.small, rfl, rfl⟩

theorem isDigit_of_mem_numeral {p : Placeholder} {c : Char} (hc : c ∈ p.numeral) :
    Decimal.isDigit c = true := by
  obtain ⟨d, hd, rfl⟩ := List.mem_map.mp hc
  exact Decimal.isDigit_digitChar (p.small d hd)

theorem span_numeral (p : Placeholder) (s : List Char) :
    leadingDigits (p.numeral ++ '}' :: s) = p.numeral ∧
      (p.numeral ++ '}' :: s).dropWhile Decimal.isDigit = '}' :: s := by
  have closing : Decimal.isDigit '}' = false := rfl
  rw [leadingDigits, List.takeWhile_append_of_pos fun _ => isDigit_of_mem_numeral,
    List.dropWhile_append_of_pos fun _ => isDigit_of_mem_numeral]
  simp [closing]

theorem text_append (p : Placeholder) (s : List Char) :
    p.text ++ s = '{' :: (p.numeral ++ '}' :: s) := by
  simp [text]

theorem read?_eq_some_iff {s rest : List Char} {p : Placeholder} :
    read? s = some (p, rest) ↔ s = p.text ++ rest := by
  constructor
  · intro read
    unfold read? at read
    split at read
    · rename_i s
      split at read
      · rename_i rest' tail
        obtain ⟨q, numeral, same⟩ := Option.map_eq_some_iff.mp read
        obtain ⟨rfl, rfl⟩ := Prod.mk.inj same
        rw [text_append, ofNumeral?_eq_some_iff.mp numeral, leadingDigits, ← tail,
          List.takeWhile_append_dropWhile]
      · cases read
    · cases read
  · rintro rfl
    obtain ⟨front, back⟩ := p.span_numeral rest
    rw [text_append, read?, front, back, ofNumeral?_eq_some_iff.mpr rfl]
    rfl

theorem length_lt_of_read? {s rest : List Char} {p : Placeholder}
    (read : read? s = some (p, rest)) : rest.length < s.length := by
  rw [read?_eq_some_iff.mp read, text_append, List.length_cons, List.length_append,
    List.length_cons]
  omega

theorem read?_eq_none_iff {s : List Char} :
    read? s = none ↔ ∀ (p : Placeholder) (rest : List Char), s ≠ p.text ++ rest := by
  rw [Option.eq_none_iff_forall_ne_some, Prod.forall]
  simp only [ne_eq, read?_eq_some_iff]

theorem exists_placeholder? (p : Placeholder) (s : List Char) :
    ∃ shorter, placeholder? (p.numeral ++ '}' :: s) = some (p.number, ⟨s, shorter⟩) := by
  obtain ⟨front, back⟩ := p.span_numeral s
  have shorter : s.length < (p.numeral ++ '}' :: s).length := by
    rw [List.length_append, List.length_cons]
    omega
  refine ⟨shorter, ?_⟩
  unfold placeholder?
  split
  · rename_i rest tail
    obtain rfl : s = rest := (List.cons.inj (back.symm.trans tail)).2
    simp only [front, p.read?_numeral, Option.map_some]
  · rename_i other
    exact absurd back (other s)

theorem exists_of_placeholder? {s : List Char} {n : Nat}
    {rest : { rest : List Char // rest.length < s.length }}
    (found : placeholder? s = some (n, rest)) :
    ∃ p : Placeholder, '{' :: s = p.text ++ rest.1 ∧ p.number = n := by
  unfold placeholder? at found
  split at found
  · rename_i rest' tail
    obtain ⟨m, numeral, same⟩ := Option.map_eq_some_iff.mp found
    obtain ⟨rfl, rfl⟩ := Prod.mk.inj same
    obtain ⟨ds, some_digit, small, digits, value⟩ := Decimal.read?_eq_some_iff.mp numeral
    refine ⟨⟨ds, some_digit, small⟩, ?_, value⟩
    rw [text_append, Placeholder.numeral, digits, leadingDigits, ← tail,
      List.takeWhile_append_dropWhile]
  · cases found

end Placeholder

inductive Token where
  | placeholder (p : Placeholder)
  | single (c : Char)

namespace Token

def text : Token → List Char
  | placeholder p => p.text
  | single c => [c]

/-- What a piece becomes: a placeholder becomes the parameter that it means, if there is one, and
all else stays as it is written. -/
def fill (params : List String) : Token → List Char
  | placeholder p =>
    match params[p.number]? with
    | some param => param.toList
    | none => p.text
  | single c => [c]

end Token

/-- A text and its pieces from left to right. A character is a piece of its own just if no
placeholder begins with it. -/
inductive Tokenised : List Char → List Token → Prop where
  | nil : Tokenised [] []
  | placeholder (p : Placeholder) {s : List Char} {ts : List Token} (rest : Tokenised s ts) :
    Tokenised (p.text ++ s) (.placeholder p :: ts)
  | single {c : Char} {s : List Char} {ts : List Token}
    (free : ∀ (p : Placeholder) (rest : List Char), c :: s ≠ p.text ++ rest)
    (rest : Tokenised s ts) : Tokenised (c :: s) (.single c :: ts)

def tokens : List Char → List Token
  | [] => []
  | c :: s =>
    match h : Placeholder.read? (c :: s) with
    | some (p, rest) =>
      have := Placeholder.length_lt_of_read? h
      .placeholder p :: tokens rest
    | none => .single c :: tokens s
termination_by s => s.length
decreasing_by
  · exact this
  · exact Nat.lt_succ_self s.length

theorem tokens_text (p : Placeholder) (s : List Char) :
    tokens (p.text ++ s) = .placeholder p :: tokens s := by
  have read := Placeholder.read?_eq_some_iff.mpr (rfl : p.text ++ s = p.text ++ s)
  rw [p.text_append] at read ⊢
  rw [tokens]
  split
  · rename_i q rest read'
    obtain ⟨rfl, rfl⟩ := Prod.mk.inj (Option.some.inj (read.symm.trans read'))
    rfl
  · rename_i none
    cases read.symm.trans none

theorem tokens_of_free {c : Char} {s : List Char}
    (free : ∀ (p : Placeholder) (rest : List Char), c :: s ≠ p.text ++ rest) :
    tokens (c :: s) = .single c :: tokens s := by
  rw [tokens]
  split
  · rename_i p rest read
    exact absurd (Placeholder.read?_eq_some_iff.mp read) (free p rest)
  · rfl

theorem tokenised_tokens (s : List Char) : Tokenised s (tokens s) := by
  fun_induction tokens s with
  | case1 => exact .nil
  | case2 c s p rest read shorter ih =>
    rw [Placeholder.read?_eq_some_iff.mp read]
    exact .placeholder p ih
  | case3 c s none ih => exact .single (Placeholder.read?_eq_none_iff.mp none) ih

namespace Tokenised

variable {s : List Char} {ts : List Token}

theorem iff_eq_tokens : Tokenised s ts ↔ ts = tokens s := by
  constructor
  · intro h
    induction h with
    | nil => rw [tokens]
    | placeholder p rest ih => rw [tokens_text, ih]
    | single free rest ih => rw [tokens_of_free free, ih]
  · rintro rfl
    exact tokenised_tokens s

theorem flatMap_text (h : Tokenised s ts) : ts.flatMap Token.text = s := by
  induction h with
  | nil => rfl
  | placeholder p rest ih => rw [List.flatMap_cons, ih, Token.text]
  | single free rest ih => rw [List.flatMap_cons, ih, Token.text, List.singleton_append]

end Tokenised

/-- A placeholder without a parameter is passed over character by character, which comes to the same
as taking it whole, since no brace opens within it. -/
theorem renderChars_text (params : List String) (p : Placeholder) (s : List Char) :
    renderChars params (p.text ++ s) =
      (Token.placeholder p).fill params ++ renderChars params s := by
  obtain ⟨shorter, found⟩ := p.exists_placeholder? s
  have closed : '{' ∉ p.numeral ++ ['}'] := by
    simp [Placeholder.numeral, Decimal.notMem_map_digitChar (c := '{') rfl p.small]
  have passed : renderChars params (p.numeral ++ '}' :: s) =
      p.numeral ++ ['}'] ++ renderChars params s := by
    rw [← renderChars_append_of_no_brace closed, List.append_assoc, List.singleton_append]
  rw [p.text_append, renderChars, if_pos rfl, found, Token.fill]
  dsimp only
  cases params[p.number]? with
  | some param => rfl
  | none => simp only [passed, Placeholder.text, List.cons_append]

theorem renderChars_of_free {c : Char} {s : List Char}
    (free : ∀ (p : Placeholder) (rest : List Char), c :: s ≠ p.text ++ rest)
    (params : List String) : renderChars params (c :: s) = c :: renderChars params s := by
  by_cases brace : c = '{'
  · subst brace
    rw [renderChars, if_pos rfl]
    cases found : placeholder? s with
    | none => rfl
    | some q =>
      obtain ⟨p, split, -⟩ := Placeholder.exists_of_placeholder? found
      exact absurd split (free p q.2.1)
  · exact renderChars_of_ne brace params s

theorem Tokenised.renderChars_eq {s : List Char} {ts : List Token} (h : Tokenised s ts)
    (params : List String) : renderChars params s = ts.flatMap (Token.fill params) := by
  induction h with
  | nil => exact renderChars_nil params
  | placeholder p rest ih => rw [renderChars_text, ih, List.flatMap_cons]
  | single free rest ih => rw [renderChars_of_free free, ih, List.flatMap_cons]; rfl

theorem toList_render (template : String) (params : List String) :
    (render template params).toList =
      (tokens template.toList).flatMap (Token.fill params) := by
  rw [render, String.toList_ofList]
  exact (tokenised_tokens template.toList).renderChars_eq params

/-- A template falls into placeholders and single characters in one way, which does not depend on
the parameters, and its rendering is made of what these become, in their order: a placeholder
becomes the parameter of its number, as it is, or stays when there is no such parameter, and every
other character stays. -/
theorem render_by_tokens (template : String) :
    (∀ ts, Tokenised template.toList ts ↔ ts = tokens template.toList) ∧
    (tokens template.toList).flatMap Token.text = template.toList ∧
    ∀ params, (render template params).toList =
      (tokens template.toList).flatMap (Token.fill params) :=
  ⟨fun _ => Tokenised.iff_eq_tokens, (tokenised_tokens template.toList).flatMap_text,
    toList_render template⟩

/-- The text of a parameter is not read again, and braces that make no placeholder stay. -/
example : render "\x7b\x7b0\x7d\x7d, \x7b1\x7d, \x7ba\x7d é\x7b" ["\x7b0\x7d"] =
    "\x7b\x7b0\x7d\x7d, \x7b1\x7d, \x7ba\x7d é\x7b" := by decide +kernel

def Token.number? : Token → Option Nat
  | .placeholder p => some p.number
  | .single _ => none

def numbers (template : String) : List Nat := (tokens template.toList).filterMap Token.number?

/-- A message is a template of these pieces with nothing left to be filled in: each placeholder has
become a parameter as it is, whatever text that is, and each parameter is in the place of one
placeholder. All else of the template stays. -/
structure Filled (template : String) (params : List String) (ts : List Token)
    (message : String) : Prop where
  pieces : Tokenised template.toList ts
  matched : (ts.filterMap Token.number?).Perm (List.range params.length)
  replaced : ∀ p, .placeholder p ∈ ts → ∃ param ∈ params, params[p.number]? = some param ∧
    (Token.placeholder p).fill params = param.toList
  rendered : message.toList = ts.flatMap (Token.fill params)

theorem filled_of_perm {template : String} {params : List String}
    (all : (numbers template).Perm (List.range params.length)) :
    Filled template params (tokens template.toList) (render template params) where
  pieces := tokenised_tokens template.toList
  matched := all
  replaced p hp := by
    have mem : p.number ∈ numbers template := List.mem_filterMap.mpr ⟨_, hp, rfl⟩
    have bound : p.number < params.length := List.mem_range.mp (all.mem_iff.mp mem)
    have there := List.getElem?_eq_getElem bound
    exact ⟨_, List.getElem_mem bound, there, by rw [Token.fill, there]⟩
  rendered := toList_render template params

end ServiceDirectory.Template
