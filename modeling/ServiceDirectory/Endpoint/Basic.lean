import ServiceDirectory.Text.Decimal

/-! Endpoints of directory servers and their written form. -/
namespace ServiceDirectory

/-- The host and port of a directory server. A numeric host of the colon form is kept without
brackets. -/
structure Endpoint where
  host : String
  port : UInt16
  deriving DecidableEq, Inhabited

namespace Endpoint

/-- The written form as characters; brackets go around a host that has a colon. -/
def chars (e : Endpoint) : List Char :=
  let port := ':' :: Decimal.text e.port.toNat
  if ':' ∈ e.host.toList then '[' :: e.host.toList ++ ']' :: port else e.host.toList ++ port

/-- The written form, which is also the address that a connection is opened to. -/
def display (e : Endpoint) : String := String.ofList e.chars

theorem display_toList (e : Endpoint) : e.display.toList = e.chars := by
  simp [display]

theorem chars_of_mem {e : Endpoint} (h : ':' ∈ e.host.toList) :
    e.chars = '[' :: e.host.toList ++ ']' :: ':' :: Decimal.text e.port.toNat := by
  simp [chars, h]

theorem chars_of_not_mem {e : Endpoint} (h : ':' ∉ e.host.toList) :
    e.chars = e.host.toList ++ ':' :: Decimal.text e.port.toNat := by
  simp [chars, h]

end Endpoint
end ServiceDirectory
