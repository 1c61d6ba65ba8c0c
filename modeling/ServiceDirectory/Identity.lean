import ServiceDirectory.Endpoint.Grammar
import ServiceDirectory.Text.Utf8

/-! Identities of providers. A provider names itself by its address or, in the older form, by its
address, a hyphen and its port. Both forms lead to the same address, and the older one is kept as
it came, so that an instance keeps its identity. -/
namespace ServiceDirectory

inductive ProviderIdentity where
  /-- The id is the address. -/
  | plain (id : String)
  /-- The address is the first `addressSize` bytes of the id; a hyphen and a port follow. -/
  | composite (id : String) (addressSize : Nat)
  deriving DecidableEq, Inhabited

namespace ProviderIdentity

def id : ProviderIdentity → String
  | plain id => id
  | composite id _ => id

def address : ProviderIdentity → String
  | plain id => id
  | composite id n => (Text.slice? id 0 n).getD id

/-- The port of the older form. -/
def port : ProviderIdentity → Option UInt16
  | plain _ => none
  | composite id n => do
    let s ← Text.slice? id (n + 1) id.utf8ByteSize
    return UInt16.ofNat (← Decimal.signedAtMost? Endpoint.maxPort s.toList)

def isLegacy : ProviderIdentity → Bool
  | plain _ => false
  | composite _ _ => true

/-- The size of the address in front of a last hyphen, if a port follows. -/
def addressSize? (raw : String) : Option Nat := do
  let (address, port) ← Endpoint.splitLast '-' raw.toList
  guard (!address.isEmpty)
  let _ ← Decimal.atMost? Endpoint.maxPort port
  return (String.ofList address).utf8ByteSize

/-- The identity behind a name that a provider gives itself. Every name has one. -/
def ofName (raw : String) : ProviderIdentity :=
  match addressSize? raw with
  | some n => composite raw n
  | none => plain raw

@[simp] theorem id_ofName (raw : String) : (ofName raw).id = raw := by
  unfold ofName
  split <;> rfl

/-- Naming a provider by its id again gives the same identity. -/
theorem ofName_id_ofName (raw : String) : ofName (ofName raw).id = ofName raw := by
  rw [id_ofName]

end ProviderIdentity
end ServiceDirectory
