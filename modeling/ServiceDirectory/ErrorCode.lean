import ServiceDirectory.Template

/-! Error codes, and errors as they go over the wire: a code and the parameters of its message.
The message itself is put together by whoever shows it. -/
namespace ServiceDirectory

/-- The codes that have a name. -/
inductive NamedCode where
  | serviceNotExist
  | serviceInstanceNotExist
  | serviceInstanceAlreadyExist
  | illegalArgument
  | illegalOperationalStatus
  | connectionLoss
  | connectionClosed
  | sessionExpired
  | connectTimeout
  | readTimeout
  | authenticationFailed
  | requestBacklogFull
  | invalidServerList
  | noAvailableInstance
  | protocolError
  | serverError
  deriving DecidableEq, Inhabited

namespace NamedCode

def all : List NamedCode :=
  [serviceNotExist, serviceInstanceNotExist, serviceInstanceAlreadyExist, illegalArgument,
    illegalOperationalStatus, connectionLoss, connectionClosed, sessionExpired, connectTimeout,
    readTimeout, authenticationFailed, requestBacklogFull, invalidServerList,
    noAvailableInstance, protocolError, serverError]

theorem mem_all (c : NamedCode) : c ∈ all := by cases c <;> decide

def number : NamedCode → UInt16
  | serviceNotExist => 1001
  | serviceInstanceNotExist => 1002
  | serviceInstanceAlreadyExist => 1003
  | illegalArgument => 1004
  | illegalOperationalStatus => 1005
  | connectionLoss => 2001
  | connectionClosed => 2002
  | sessionExpired => 2003
  | connectTimeout => 2004
  | readTimeout => 2005
  | authenticationFailed => 2006
  | requestBacklogFull => 2007
  | invalidServerList => 2008
  | noAvailableInstance => 3001
  | protocolError => 4001
  | serverError => 5001

theorem number_injective {c d : NamedCode} (h : c.number = d.number) : c = d := by
  cases c <;> cases d <;> first | rfl | exact absurd h (by decide)

def name : NamedCode → String
  | serviceNotExist => "ServiceNotExist"
  | serviceInstanceNotExist => "ServiceInstanceNotExist"
  | serviceInstanceAlreadyExist => "ServiceInstanceAlreadyExist"
  | illegalArgument => "IllegalArgument"
  | illegalOperationalStatus => "IllegalOperationalStatus"
  | connectionLoss => "ConnectionLoss"
  | connectionClosed => "ConnectionClosed"
  | sessionExpired => "SessionExpired"
  | connectTimeout => "ConnectTimeout"
  | readTimeout => "ReadTimeout"
  | authenticationFailed => "AuthenticationFailed"
  | requestBacklogFull => "RequestBacklogFull"
  | invalidServerList => "InvalidServerList"
  | noAvailableInstance => "NoAvailableInstance"
  | protocolError => "ProtocolError"
  | serverError => "ServerError"

/-- The message template. -/
def template : NamedCode → String
  | serviceNotExist => "The Service \x7b0\x7d does not exist."
  | serviceInstanceNotExist => "The ServiceInstance \x7b1\x7d does not exist in Service \x7b0\x7d."
  | serviceInstanceAlreadyExist =>
    "The ServiceInstance \x7b1\x7d already exists in Service \x7b0\x7d."
  | illegalArgument => "Illegal argument: \x7b0\x7d."
  | illegalOperationalStatus =>
    "Illegal OperationalStatus \x7b0\x7d for ServiceInstance \x7b1\x7d."
  | connectionLoss => "Connection to the directory server was lost: \x7b0\x7d."
  | connectionClosed => "The directory connection is closed."
  | sessionExpired => "The directory session has expired."
  | connectTimeout => "Connecting to \x7b0\x7d timed out after \x7b1\x7dms."
  | readTimeout => "No data received from the directory server within \x7b0\x7dms."
  | authenticationFailed => "Authentication failed on \x7b0\x7d: \x7b1\x7d."
  | requestBacklogFull => "The outstanding request limit of \x7b0\x7d was reached."
  | invalidServerList => "Invalid directory server list: \x7b0\x7d."
  | noAvailableInstance => "No available instance for Service \x7b0\x7d."
  | protocolError => "Protocol error: \x7b0\x7d."
  | serverError => "Directory server error: \x7b0\x7d."

end NamedCode

/-- A number that is the code of no name. -/
structure UnknownCode where
  value : UInt16
  unlisted : ∀ c : NamedCode, c.number ≠ value

inductive ErrorCode where
  | named (c : NamedCode)
  | unrecognized (u : UnknownCode)

namespace ErrorCode

instance : Inhabited ErrorCode := ⟨.named default⟩

def number : ErrorCode → UInt16
  | .named c => c.number
  | .unrecognized u => u.value

/-- The code with a number; every number has one. -/
def ofNumber (n : UInt16) : ErrorCode :=
  match h : NamedCode.all.find? (·.number == n) with
  | some c => .named c
  | none => .unrecognized ⟨n, fun c hc => by
      have := List.find?_eq_none.mp h c (NamedCode.mem_all c)
      simp [hc] at this⟩

@[simp] theorem number_ofNumber (n : UInt16) : (ofNumber n).number = n := by
  unfold ofNumber
  split
  · rename_i h
    simpa [number] using List.find?_some h
  · rfl

theorem number_injective {c d : ErrorCode} (h : c.number = d.number) : c = d := by
  cases c with
  | named c =>
    cases d with
    | named d => exact congrArg _ (NamedCode.number_injective h)
    | unrecognized u => exact absurd h (u.unlisted c)
  | unrecognized u =>
    cases d with
    | named d => exact absurd h.symm (u.unlisted d)
    | unrecognized v =>
      cases u; cases v
      simp only [number] at h
      subst h
      rfl

@[simp] theorem ofNumber_number (c : ErrorCode) : ofNumber c.number = c :=
  number_injective (number_ofNumber c.number)

instance : DecidableEq ErrorCode := fun c d =>
  decidable_of_iff (c.number = d.number) ⟨number_injective, fun h => h ▸ rfl⟩

def isUnrecognized : ErrorCode → Bool
  | .named _ => false
  | .unrecognized _ => true

/-- The name; that of an unrecognized code shows its number. -/
def name : ErrorCode → String
  | .named c => c.name
  | .unrecognized u => "Unrecognized(UnknownCode(" ++ Decimal.string u.value.toNat ++ "))"

/-- The name with the number behind it. -/
def display (c : ErrorCode) : String :=
  c.name ++ "(" ++ Decimal.string c.number.toNat ++ ")"

def template : ErrorCode → String
  | .named c => c.template
  | .unrecognized u => "Unrecognized error code " ++ Decimal.string u.value.toNat ++ "."

end ErrorCode

/-- An error as it goes over the wire. -/
structure ServiceError where
  code : ErrorCode
  params : List String := []
  deriving DecidableEq, Inhabited

/-- The template of the code with the parameters put in. -/
def ServiceError.message (e : ServiceError) : String := Template.render e.code.template e.params

end ServiceDirectory
