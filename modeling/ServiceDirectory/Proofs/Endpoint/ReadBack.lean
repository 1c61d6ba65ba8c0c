import Mathlib.Data.List.Basic
import ServiceDirectory.Proofs.Endpoint

/-! What an endpoint is read as once it has been written. Brackets are written around a host that
has a colon, and around no other. A host that stood in brackets without a colon in it therefore has
to begin with a character that a bare host can begin with; else it is not read back as it was. -/
namespace ServiceDirectory.Endpoint

theorem portText_text (port : UInt16) : PortText (Decimal.text port.toNat) port :=
  ⟨Decimal.digits port.toNat, Decimal.digits_ne_nil _, Decimal.digits_lt_ten _, .inl rfl,
    Decimal.value_digits _⟩

theorem isBlank_digitChar : ∀ d < 10, Text.isBlank (Decimal.digitChar d) = false := by
  decide

theorem last_of_port (front : List Char) (port : UInt16) :
    ∀ c ∈ (front ++ ':' :: Decimal.text port.toNat).getLast?, Text.isBlank c = false := by
  intro c last
  have some_digit : Decimal.text port.toNat ≠ [] := by simp [Decimal.text, Decimal.digits_ne_nil]
  rw [List.append_cons, List.getLast?_append_of_ne_nil _ some_digit] at last
  obtain ⟨d, mem, rfl⟩ := List.mem_map.mp (List.mem_of_getLast? last)
  exact isBlank_digitChar d (Decimal.digits_lt_ten _ d mem)

theorem trim_chars_of_mem {e : Endpoint} (colon : ':' ∈ e.host.toList) :
    Text.trim e.chars = e.chars := by
  refine (Text.trims_iff.mp ⟨⟨[], [], by simp, by simp, by simp⟩, ?_, ?_⟩).symm
  · rw [chars_of_mem colon]
    rintro c ⟨⟩
    decide
  · rw [chars_of_mem colon, List.append_cons]
    exact last_of_port _ e.port

theorem trim_chars_of_not_mem {e : Endpoint} (no_colon : ':' ∉ e.host.toList) :
    Text.trim e.chars = Text.trimLeft e.host.toList ++ ':' :: Decimal.text e.port.toNat := by
  obtain ⟨a, front, blank⟩ := Text.exists_trimLeft e.host.toList
  refine (Text.trims_iff.mp ⟨⟨a, [], ?_, blank, by simp⟩, ?_, last_of_port _ e.port⟩).symm
  · rw [chars_of_not_mem no_colon, List.append_nil, ← List.append_assoc, ← front]
  · intro c head
    rw [List.head?_append, Option.mem_def] at head
    rcases Option.or_eq_some_iff.mp head with first | ⟨-, colon⟩
    · exact Text.trimLeft_head _ c first
    · cases colon
      decide

theorem PortText.unique {p : List Char} {port port' : UInt16} (h : PortText p port)
    (h' : PortText p port') : port = port' := by
  rw [portText_iff] at h h'
  exact UInt16.toNat_inj.mp (Option.some.inj (h.symm.trans h'))

theorem Written.some_host {t : List Char} {e : Endpoint} (written : Written t e) :
    e.host.toList ≠ [] := by
  cases written <;> simpa

theorem Written.closed_or_bare {t : List Char} {e : Endpoint} (written : Written t e) :
    (t.head? = some '[' ∧ ']' ∉ e.host.toList) ∨
      t.head? ≠ some '[' ∧ ':' ∉ e.host.toList ∧ e.host.toList.head? = t.head? := by
  cases written with
  | bracketed split _ closed _ => exact .inl ⟨by rw [split]; rfl, by simpa using closed⟩
  | bare unbracketed split some_host no_colon _ =>
    refine .inr ⟨unbracketed, by simpa using no_colon, ?_⟩
    rw [split, List.head?_append_of_ne_nil _ some_host, String.toList_ofList]

theorem split_unique {host host' p p' : List Char} (no_colon : ':' ∉ host) (no_colon' : ':' ∉ host')
    (same : host ++ ':' :: p = host' ++ ':' :: p') : host = host' ∧ p = p' := by
  have split := splitFirst_eq_some_iff.mpr ⟨same, no_colon'⟩
  rwa [splitFirst_eq_some_iff.mpr ⟨rfl, no_colon⟩, Option.some.injEq, Prod.mk.injEq] at split

theorem written_bare_iff {host : List Char} {port : UInt16} {e : Endpoint} (no_colon : ':' ∉ host)
    (unclosed : host.head? = some '[' → ']' ∉ host) :
    Written (host ++ ':' :: Decimal.text port.toNat) e ↔
      host ≠ [] ∧ host.head? ≠ some '[' ∧ e = ⟨String.ofList host, port⟩ := by
  have head : (host ++ ':' :: Decimal.text port.toNat).head? = some '[' ↔
      host.head? = some '[' := by
    cases host <;> simp
  constructor
  · rintro (⟨split, -, -, -⟩ | ⟨unbracketed, split, some_host, no_colon', numeral⟩)
    · have bracket : host.head? = some '[' := head.mp (by rw [split]; rfl)
      have closing : ']' ∈ host ++ ':' :: Decimal.text port.toNat := by simp [split]
      rcases List.mem_append.mp closing with mem | mem
      · exact absurd mem (unclosed bracket)
      · have in_port : ']' ∈ Decimal.text port.toNat := by simpa using mem
        exact absurd in_port (Decimal.notMem_map_digitChar rfl (Decimal.digits_lt_ten _))
    · obtain ⟨rfl, rfl⟩ := split_unique no_colon no_colon' split
      rw [(portText_text port).unique numeral]
      exact ⟨some_host, mt head.mpr unbracketed, rfl⟩
  · rintro ⟨some_host, bare, rfl⟩
    exact .bare (mt head.mp bare) rfl some_host no_colon (portText_text port)

section

variable {s : String} {e : Endpoint} (read : parse s = .ok e)

include read

theorem parse_display_of_colon (colon : ':' ∈ e.host.toList) : parse e.display = .ok e := by
  have written := parse_eq_ok_iff.mp read
  obtain ⟨-, closed⟩ | ⟨-, no_colon, -⟩ := written.closed_or_bare
  · rw [parse_eq_ok_iff, display_toList, trim_chars_of_mem colon]
    have again := Written.bracketed (chars_of_mem colon) written.some_host closed
      (portText_text e.port)
    rwa [String.ofList_toList] at again
  · exact absurd colon no_colon

theorem front_of_unbracketed (unbracketed : (Text.trim s.toList).head? ≠ some '[') :
    ∀ c ∈ e.host.toList.head?, Text.isBlank c = false ∧ c ≠ '[' := by
  intro c first
  obtain ⟨bracketed, -⟩ | ⟨-, -, head⟩ := (parse_eq_ok_iff.mp read).closed_or_bare
  · exact absurd bracketed unbracketed
  · rw [head] at first
    refine ⟨(Text.trims_trim s.toList).head c first, ?_⟩
    rintro rfl
    exact unbracketed first

/-- With no colon in its host, it is read back without the blanks at the front of its host, if
something is left of the host then and does not begin with an opening bracket. -/
theorem parse_display_of_no_colon (no_colon : ':' ∉ e.host.toList) (e' : Endpoint) :
    parse e.display = .ok e' ↔ Text.trimLeft e.host.toList ≠ [] ∧
      (Text.trimLeft e.host.toList).head? ≠ some '[' ∧
      e' = ⟨String.ofList (Text.trimLeft e.host.toList), e.port⟩ := by
  have part : ∀ c ∈ Text.trimLeft e.host.toList, c ∈ e.host.toList :=
    fun c => (List.dropWhile_suffix _).mem
  rw [parse_eq_ok_iff, display_toList, trim_chars_of_not_mem no_colon]
  refine written_bare_iff (fun mem => no_colon (part _ mem)) fun bracket closing => ?_
  obtain ⟨-, closed⟩ | ⟨unbracketed, -, -⟩ := (parse_eq_ok_iff.mp read).closed_or_bare
  · exact closed (part _ closing)
  · have front := front_of_unbracketed read unbracketed
    rw [Text.trimLeft_eq_self fun c first => (front c first).1] at bracket
    exact (front _ bracket).2 rfl

theorem parse_display_eq_self_iff :
    parse e.display = .ok e ↔
      ':' ∈ e.host.toList ∨ ∀ c ∈ e.host.toList.head?, Text.isBlank c = false ∧ c ≠ '[' := by
  by_cases colon : ':' ∈ e.host.toList
  · exact iff_of_true (parse_display_of_colon read colon) (.inl colon)
  · rw [parse_display_of_no_colon read colon, or_iff_right colon]
    constructor
    · rintro ⟨-, bare, same⟩ c first
      have kept : Text.trimLeft e.host.toList = e.host.toList := by
        conv_rhs => rw [same, String.toList_ofList]
      have front := Text.trimLeft_head e.host.toList
      rw [kept] at bare front
      refine ⟨front c first, ?_⟩
      rintro rfl
      exact bare first
    · intro front
      rw [Text.trimLeft_eq_self fun c first => (front c first).1, String.ofList_toList]
      exact ⟨(parse_eq_ok_iff.mp read).some_host, fun bracket => (front _ bracket).2 rfl, rfl⟩

end

/-- An endpoint that was read, and was written, is read back as it was just if its host has a colon
or begins with neither a blank nor an opening bracket. So it is whenever it was first read without
brackets around the host. Of a host that has no colon the blanks at its front are lost, and the
endpoint is refused if nothing is left then or an opening bracket comes first. -/
theorem display_read_back {s : String} {e : Endpoint} (read : parse s = .ok e) :
    (parse e.display = .ok e ↔
      ':' ∈ e.host.toList ∨ ∀ c ∈ e.host.toList.head?, Text.isBlank c = false ∧ c ≠ '[') ∧
    ((Text.trim s.toList).head? ≠ some '[' → parse e.display = .ok e) ∧
    (':' ∉ e.host.toList → ∀ e', parse e.display = .ok e' ↔
      Text.trimLeft e.host.toList ≠ [] ∧ (Text.trimLeft e.host.toList).head? ≠ some '[' ∧
      e' = ⟨String.ofList (Text.trimLeft e.host.toList), e.port⟩) :=
  ⟨parse_display_eq_self_iff read,
    fun unbracketed =>
      (parse_display_eq_self_iff read).mpr (.inr (front_of_unbracketed read unbracketed)),
    parse_display_of_no_colon read⟩

/-- A host in brackets that begins with a blank comes back without it; one with a colon comes back
as it was. -/
theorem display_read_back_of_blank :
    parse "[ h]:1" = .ok ⟨" h", 1⟩ ∧ parse (display ⟨" h", 1⟩) = .ok ⟨"h", 1⟩ ∧
    parse "[ ::1]:+080" = .ok ⟨" ::1", 80⟩ ∧
    parse (display ⟨" ::1", 80⟩) = .ok ⟨" ::1", 80⟩ := by
  have blank : parse "[ h]:1" = .ok ⟨" h", 1⟩ := by decide +kernel
  have colon : parse "[ ::1]:+080" = .ok ⟨" ::1", 80⟩ := by decide +kernel
  refine ⟨blank, ?_, colon, ?_⟩
  · exact ((display_read_back blank).2.2 (by decide) _).mpr (by decide)
  · exact (display_read_back colon).1.mpr (.inl (by decide))

/-- Not every endpoint that was read is read back: one changes its host, and another one is
refused. -/
theorem exists_display_not_read_back :
    (∃ s e e', parse s = .ok e ∧ parse e.display = .ok e' ∧ e'.host ≠ e.host) ∧
    ∃ s e, parse s = .ok e ∧
      parse e.display = .error (.invalidEndpoint (Text.trimmed e.display)) :=
  ⟨⟨"[ h]:1", ⟨" h", 1⟩, ⟨"h", 1⟩, by decide +kernel, by decide +kernel, by decide⟩,
    "[[h]:1", ⟨"[h", 1⟩, by decide +kernel, by decide +kernel⟩

end ServiceDirectory.Endpoint
