import ServiceDirectory.Failure
import ServiceDirectory.Proofs.Template

/-! What failures say on the wire. A failure brings as many parameters as its template has
placeholders, and each of these means another one, so that no placeholder stays and nothing that is
known of the failure is left out. -/
namespace ServiceDirectory

def NamedCode.arity : NamedCode → Nat
  | connectionClosed | sessionExpired => 0
  | serviceInstanceNotExist | serviceInstanceAlreadyExist | illegalOperationalStatus => 2
  | connectTimeout | authenticationFailed => 2
  | _ => 1

theorem NamedCode.perm_numbers (c : NamedCode) :
    (Template.numbers c.template).Perm (List.range c.arity) := by
  cases c <;> decide +kernel

namespace Failure

theorem exists_named {f : Failure} (own : ∀ e, f ≠ .server e) :
    ∃ c : NamedCode, f.code = .named c ∧ f.params.length = c.arity := by
  cases f with
  | server e => exact absurd rfl (own e)
  | _ => exact ⟨_, rfl, rfl⟩

theorem perm_numbers {f : Failure} (own : ∀ e, f ≠ .server e) :
    (Template.numbers f.code.template).Perm (List.range f.params.length) := by
  obtain ⟨c, named, arity⟩ := exists_named own
  rw [named, arity]
  exact c.perm_numbers

end Failure

/-- An error of the server goes on as it is. Every other failure goes on with its own code, and its
message is the template of this code with nothing left to be filled in. -/
theorem Failure.rendered_on_wire (f : Failure) :
    (∀ e, f = .server e → f.toServiceError = e) ∧
    ((∀ e, f ≠ .server e) → f.toServiceError.code = f.code ∧
      ∃ ts, Template.Filled f.code.template f.toServiceError.params ts f.toServiceError.message) :=
  ⟨fun e server => server ▸ toServiceError_server e,
    fun own => ⟨rfl, _, Template.filled_of_perm (perm_numbers own)⟩⟩

/-- A host and a reason that look like placeholders are shown as they are. -/
theorem Failure.rendered_on_wire_of_braces :
    (∀ e, authFailed ⟨"\x7b1\x7d", 7000⟩ "\x7b0\x7d" ≠ .server e) ∧
    ((authFailed ⟨"\x7b1\x7d", 7000⟩ "\x7b0\x7d").toServiceError.code =
        .named .authenticationFailed ∧
      ∃ ts, Template.Filled "Authentication failed on \x7b0\x7d: \x7b1\x7d."
        ["\x7b1\x7d:7000", "\x7b0\x7d"] ts "Authentication failed on \x7b1\x7d:7000: \x7b0\x7d.") ∧
    (server ⟨.named .serverError, []⟩).toServiceError = ⟨.named .serverError, []⟩ := by
  have own : ∀ e, authFailed ⟨"\x7b1\x7d", 7000⟩ "\x7b0\x7d" ≠ .server e := nofun
  have params : (authFailed ⟨"\x7b1\x7d", 7000⟩ "\x7b0\x7d").toServiceError.params =
      ["\x7b1\x7d:7000", "\x7b0\x7d"] := by decide +kernel
  have message : (authFailed ⟨"\x7b1\x7d", 7000⟩ "\x7b0\x7d").toServiceError.message =
      "Authentication failed on \x7b1\x7d:7000: \x7b0\x7d." := by decide +kernel
  obtain ⟨code, ts, filled⟩ := (rendered_on_wire _).2 own
  rw [params, message] at filled
  exact ⟨own, ⟨code, ts, filled⟩, (rendered_on_wire _).1 _ rfl⟩

end ServiceDirectory
