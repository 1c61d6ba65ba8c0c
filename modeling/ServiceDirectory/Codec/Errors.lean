import ServiceDirectory.Endpoint.Basic
import ServiceDirectory.ErrorCode
import ServiceDirectory.Json.Record

/-! The JSON forms of endpoints and of errors. A code is its number. -/
namespace ServiceDirectory

open Json

def Endpoint.toJson (e : Endpoint) : Json :=
  record [("host", text e.host), ("port", natural e.port.toNat)]

def Endpoint.ofJson? (j : Json) : Option Endpoint := do
  let r ← Record.ofJson? ["host", "port"] j
  return ⟨← r.required? "host" text?, ← r.required? "port" uint16?⟩

def ErrorCode.toJson (c : ErrorCode) : Json := natural c.number.toNat

def ErrorCode.ofJson? (j : Json) : Option ErrorCode := j.uint16?.map ErrorCode.ofNumber

def ServiceError.toJson (e : ServiceError) : Json :=
  record [("code", e.code.toJson), ("params", .array (e.params.map text))]

def ServiceError.ofJson? (j : Json) : Option ServiceError := do
  let r ← Record.ofJson? ["code", "params"] j
  return ⟨← r.required? "code" ErrorCode.ofJson?, ← r.defaulted? "params" [] (list? text?)⟩

end ServiceDirectory
