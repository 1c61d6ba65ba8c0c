import ServiceDirectory.Json.Value

/-! Records and tagged choices as JSON values. A record is an object, whose unknown members are
passed over and whose known ones occur once at most, or an array of its fields in their order. A
tagged choice names its alternative in one member, or in the first item of an array. -/
namespace ServiceDirectory.Json

/-- The fields of a record that are there, by name. `positional` says that they came as an array,
where no field but one with a default may be left out. -/
structure Record where
  positional : Bool
  fields : List (String × Json)

namespace Record

/-- The members of an object, once their keys are texts. -/
def named? (members : List (Literal × Json)) : Option (List (String × Json)) :=
  members.mapM fun (k, j) => k.text?.map (·, j)

/-- Takes a value as a record with the fields `names`. -/
def ofJson? (names : List String) : Json → Option Record
  | .object members => do
    let all ← named? members
    let (known, unknown) := all.partition fun m => names.contains m.1
    guard (names.all fun n => (known.filter (·.1 == n)).length ≤ 1)
    guard (unknown.all (·.2.skippable))
    return ⟨false, known⟩
  | .array items => do
    guard (items.length ≤ names.length)
    return ⟨true, names.zip items⟩
  | _ => none

def field? (r : Record) (name : String) : Option Json := r.fields.lookup name

/-- A field that has to be there. -/
def required? {α : Type} (r : Record) (name : String) (read : Json → Option α) : Option α :=
  r.field? name >>= read

/-- A field that may be null or, in an object, left out. -/
def optional? {α : Type} (r : Record) (name : String) (read : Json → Option α) :
    Option (Option α) :=
  match r.field? name with
  | some j => j.optional? read
  | none => if r.positional then none else some none

/-- A field that may be left out in favour of a default. -/
def defaulted? {α : Type} (r : Record) (name : String) (default : α)
    (read : Json → Option α) : Option α :=
  match r.field? name with
  | some j => read j
  | none => some default

end Record

/-- An alternative of a tagged choice: its tag, and the value without it. -/
structure Tagged where
  tag : Json
  rest : Json

namespace Tagged

/-- Splits a value into its tag and the rest. The tag of an object is its only member `key`. -/
def ofJson? (key : String) : Json → Option Tagged
  | .object members => do
    let tagged := members.filter (·.1 == .ofString key)
    let others := members.filter (·.1 != .ofString key)
    match tagged with
    | [(_, tag)] => some ⟨tag, .object others⟩
    | _ => none
  | .array (tag :: items) => some ⟨tag, .array items⟩
  | _ => none

/-- The alternative that the tag names. Among values that were kept, a number names the
alternative at its place. -/
def choice? {α : Type} (kept : Bool) (names : List (String × α)) (t : Tagged) : Option α :=
  match t.tag with
  | .string s => do names.lookup (← s.text?)
  | .number (.natural n) => if kept then names[n]?.map (·.2) else none
  | _ => none

/-- Whether nothing follows the tag that an alternative without fields would have to read. -/
def isBare (t : Tagged) : Bool :=
  match t.rest with
  | .array items => items.isEmpty
  | _ => true

end Tagged

/-- The name of an alternative without fields: a string, or an object with this one name. Its
value there is null or, among values that were kept, an empty object. -/
def name? (kept : Bool) : Json → Option String
  | .string s => s.text?
  | .object [(k, .null)] => k.text?
  | .object [(k, .object [])] => if kept then k.text? else none
  | _ => none

/-- Finds the alternative that a name stands for. -/
def choice? {α : Type} (kept : Bool) (names : List (String × α)) (j : Json) : Option α := do
  names.lookup (← name? kept j)

end ServiceDirectory.Json
