import ServiceDirectory.Endpoint.Grammar
import ServiceDirectory.Proofs.Blank
import ServiceDirectory.Proofs.Decimal

/-! Which texts are endpoints. There are two ways to write one, and a text is read just if it is
written in one of them, apart from the blanks around it. -/
namespace ServiceDirectory.Endpoint

/-- A port as it is written: one plus sign at most, and then digits, which may begin with zeros. -/
def PortText (p : List Char) (port : UInt16) : Prop :=
  ∃ ds, ds ≠ [] ∧ (∀ d ∈ ds, d < 10) ∧
    (p = ds.map Decimal.digitChar ∨ p = '+' :: ds.map Decimal.digitChar) ∧
    Decimal.value ds = port.toNat

theorem portText_iff {p : List Char} {port : UInt16} :
    PortText p port ↔ Decimal.signedAtMost? maxPort p = some port.toNat := by
  rw [Decimal.signedAtMost?_eq_some_iff]
  have small : port.toNat ≤ maxPort := Nat.le_of_lt_succ port.toNat_lt
  simp only [PortText, small, and_true]

theorem PortText.colon_notMem {p : List Char} {port : UInt16} (h : PortText p port) : ':' ∉ p := by
  obtain ⟨ds, -, small, rfl | rfl, -⟩ := h
  · exact Decimal.notMem_map_digitChar rfl small
  · simp [Decimal.notMem_map_digitChar (c := ':') rfl small]

/-- The two ways in which an endpoint is written: a host in brackets, which has no closing bracket
in it, or a host without a colon, and then a colon and the port. -/
inductive Written (t : List Char) : Endpoint → Prop where
  | bracketed {host p : List Char} {port : UInt16} (split : t = '[' :: host ++ ']' :: ':' :: p)
    (some_host : host ≠ []) (closed : ']' ∉ host) (numeral : PortText p port) :
    Written t ⟨String.ofList host, port⟩
  | bare {host p : List Char} {port : UInt16} (unbracketed : t.head? ≠ some '[')
    (split : t = host ++ ':' :: p) (some_host : host ≠ []) (no_colon : ':' ∉ host)
    (numeral : PortText p port) : Written t ⟨String.ofList host, port⟩

theorem parts?_eq_some_iff {t host p : List Char} :
    parts? t = some (host, p) ↔
      (t = '[' :: host ++ ']' :: ':' :: p ∧ ']' ∉ host) ∨
      t.head? ≠ some '[' ∧ t = host ++ ':' :: p ∧ ':' ∉ host ∧ ':' ∉ p := by
  unfold parts?
  split
  · rename_i s
    simp only [List.head?_cons, ne_eq, not_true_eq_false, false_and, or_false, List.cons_append,
      List.cons.injEq, true_and]
    rw [← splitFirst_eq_some_iff (c := ']')]
    split
    · rename_i host' p' read
      simp [read]
    · rename_i other
      refine ⟨fun h => (nomatch h), fun h => absurd h (other _ _)⟩
  · rename_i other
    have unbracketed : t.head? ≠ some '[' := by
      intro head
      obtain ⟨s, rfl⟩ := List.head?_eq_some_iff.mp head
      exact other s rfl
    have bracketed : ¬(t = '[' :: host ++ ']' :: ':' :: p ∧ ']' ∉ host) :=
      fun h => unbracketed (h.1 ▸ rfl)
    rw [Option.filter_eq_some_iff, splitLast_eq_some_iff, or_iff_right bracketed]
    simp only [decide_eq_true_eq, unbracketed, ne_eq, not_false_eq_true, true_and, and_assoc,
      and_comm (a := ':' ∉ p)]

/-- What is read without blanks around it is an endpoint as it is written, and each of those is
read. -/
theorem ofChars?_eq_some_iff {t : List Char} {e : Endpoint} :
    ofChars? t = some e ↔ Written t e := by
  simp only [ofChars?, Option.bind_eq_bind, Option.bind_eq_some_iff, Prod.exists,
    Option.guard_eq_some', Option.pure_def, Option.some.injEq, parts?_eq_some_iff]
  constructor
  · rintro ⟨host, p, split, ⟨⟩, some_host, n, read, rfl⟩
    obtain ⟨-, -, -, -, -, limited⟩ := Decimal.signedAtMost?_eq_some_iff.mp read
    have port : (UInt16.ofNat n).toNat = n :=
      UInt16.toNat_ofNat_of_lt (Nat.lt_succ_of_le limited)
    have numeral : PortText p (UInt16.ofNat n) := portText_iff.mpr (port.symm ▸ read)
    have some_host : host ≠ [] := by simpa using some_host
    rcases split with ⟨split, closed⟩ | ⟨unbracketed, split, no_colon, -⟩
    · exact .bracketed split some_host closed numeral
    · exact .bare unbracketed split some_host no_colon numeral
  · rintro (⟨split, some_host, closed, numeral⟩ |
      ⟨unbracketed, split, some_host, no_colon, numeral⟩)
    · exact ⟨_, _, .inl ⟨split, closed⟩, (), by simpa using some_host, _, portText_iff.mp numeral,
        by rw [UInt16.ofNat_toNat]⟩
    · exact ⟨_, _, .inr ⟨unbracketed, split, no_colon, numeral.colon_notMem⟩, (),
        by simpa using some_host, _, portText_iff.mp numeral, by rw [UInt16.ofNat_toNat]⟩

theorem parse_eq_ok_iff {s : String} {e : Endpoint} :
    parse s = .ok e ↔ Written (Text.trim s.toList) e := by
  rw [← ofChars?_eq_some_iff, parse]
  cases ofChars? (Text.trim s.toList) <;> simp

theorem parse_eq_error {s : String} (other : ∀ e, ¬Written (Text.trim s.toList) e) :
    parse s = .error (.invalidEndpoint (Text.trimmed s)) := by
  have none : ofChars? (Text.trim s.toList) = none :=
    Option.eq_none_iff_forall_ne_some.mpr fun e read => other e (ofChars?_eq_some_iff.mp read)
  rw [parse, none]

/-- Without the blanks around it, a text is an endpoint just if it is a host in brackets, which has
no closing bracket itself, or without brackets a host that has no colon, and then a colon and a
port: one plus sign at most, and digits whose value a port can have. No other text is an endpoint;
it is refused with a failure that tells it without the blanks. -/
theorem parse_grammar (s : String) :
    (∀ t, Text.Trims s.toList t ↔ t = Text.trim s.toList) ∧
    (∀ e, parse s = .ok e ↔ Written (Text.trim s.toList) e) ∧
    (parse s = .error (.invalidEndpoint (Text.trimmed s)) ↔
      ∀ e, ¬Written (Text.trim s.toList) e) := by
  refine ⟨fun t => Text.trims_iff, fun e => parse_eq_ok_iff, fun refused e written => ?_,
    parse_eq_error⟩
  rw [parse_eq_ok_iff.mpr written] at refused
  cases refused

/-- A host in brackets may have any other bracket in it, and a port may begin with zeros. -/
example : parse "\t[[::1]:+0080 " = .ok ⟨"[::1", 80⟩ := by decide +kernel

end ServiceDirectory.Endpoint
