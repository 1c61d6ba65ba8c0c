import ServiceDirectory.Text.Utf8

/-! JSON values as they are read and written here. Members of an object keep their order and may
repeat a key, since a reader of a record has to see both. A string literal is kept as bytes: a
value that is only skipped may hold bytes that are no text. -/
namespace ServiceDirectory

/-- A number of a JSON text. -/
inductive Json.Number where
  /-- A whole number below 2 ^ 64. -/
  | natural (n : Nat)
  /-- The number `-n`, for `n` from 1 to 2 ^ 63. -/
  | negative (n : Nat)
  /-- Every other number, as a double. -/
  | real (x : Float)
  /-- A number beyond the largest double. -/
  | outOfRange
  deriving Inhabited

/-- A string literal with its escapes resolved. `control` says that a control character stood in
it unescaped. -/
structure Json.Literal where
  bytes : List UInt8
  control : Bool := false
  deriving DecidableEq, Inhabited

inductive Json where
  | null
  | bool (b : Bool)
  | number (n : Json.Number)
  | string (s : Json.Literal)
  | array (items : List Json)
  | object (members : List (Json.Literal × Json))
  deriving Inhabited

namespace Json

/-- Induction on the parts of a value: the items of an array, and what the members of an object
hold. -/
@[elab_as_elim]
theorem induction {motive : Json → Prop} (null : motive .null) (bool : ∀ b, motive (.bool b))
    (number : ∀ n, motive (.number n)) (string : ∀ s, motive (.string s))
    (array : ∀ items, (∀ j ∈ items, motive j) → motive (.array items))
    (object : ∀ members, (∀ m ∈ members, motive m.2) → motive (.object members)) :
    ∀ j, motive j
  | .null => null
  | .bool b => bool b
  | .number n => number n
  | .string s => string s
  | .array items => array items fun j _ => induction null bool number string array object j
  | .object members =>
    object members fun m _ => induction null bool number string array object m.2
termination_by j => sizeOf j
decreasing_by
  · have inside : sizeOf j < sizeOf items := List.sizeOf_lt_of_mem ‹_›
    simp
    omega
  · have inside : sizeOf m < sizeOf members := List.sizeOf_lt_of_mem ‹_›
    cases m
    simp at inside ⊢
    omega

/-- A text as a literal. -/
def Literal.ofString (s : String) : Literal := ⟨s.toByteArray.data.toList, false⟩

/-- The text of a literal, if its bytes are UTF-8 and it has no raw control character. -/
def Literal.text? (s : Literal) : Option String :=
  if s.control then none else String.fromUTF8? s.bytes.toByteArray

@[simp] theorem Literal.text?_ofString (s : String) : (Literal.ofString s).text? = some s := by
  simp [text?, ofString, Text.toByteArray_data_toList]

theorem Literal.ofString_inj {s t : String} : Literal.ofString s = Literal.ofString t ↔ s = t :=
  ⟨fun h => by
    have := congrArg Literal.text? h
    simpa using this, fun h => h ▸ rfl⟩

/-- A text as a value. -/
def text (s : String) : Json := .string (.ofString s)

/-- A whole number as a value. -/
def natural (n : Nat) : Json := .number (.natural n)

/-- An object from texts and values. -/
def record (members : List (String × Json)) : Json :=
  .object (members.map fun m => (.ofString m.1, m.2))

/-- An optional value, with null for none. -/
def optional {α : Type} (f : α → Json) : Option α → Json
  | none => .null
  | some a => f a

mutual

/-- Whether every literal, keys included, and every number of a value passes a test. -/
def every (literal : Literal → Bool) (number : Number → Bool) : Json → Bool
  | .null => true
  | .bool _ => true
  | .number n => number n
  | .string s => literal s
  | .array items => everyItem literal number items
  | .object members => everyMember literal number members

def everyItem (literal : Literal → Bool) (number : Number → Bool) : List Json → Bool
  | [] => true
  | j :: rest => every literal number j && everyItem literal number rest

def everyMember (literal : Literal → Bool) (number : Number → Bool) :
    List (Literal × Json) → Bool
  | [] => true
  | (k, j) :: rest => literal k && every literal number j && everyMember literal number rest

end

mutual

/-- The number of arrays and objects around the innermost one, itself included. -/
def depth : Json → Nat
  | .array items => depthOfItems items + 1
  | .object members => depthOfMembers members + 1
  | _ => 0

def depthOfItems : List Json → Nat
  | [] => 0
  | j :: rest => max (depth j) (depthOfItems rest)

def depthOfMembers : List (Literal × Json) → Nat
  | [] => 0
  | (_, j) :: rest => max (depth j) (depthOfMembers rest)

end

theorem everyItem_eq_all (literal : Literal → Bool) (number : Number → Bool) (items : List Json) :
    everyItem literal number items = items.all (every literal number) := by
  induction items with
  | nil => rfl
  | cons j items ih => rw [everyItem, ih, List.all_cons]

theorem everyMember_eq_all (literal : Literal → Bool) (number : Number → Bool)
    (members : List (Literal × Json)) :
    everyMember literal number members =
      members.all fun m => literal m.1 && every literal number m.2 := by
  induction members with
  | nil => rfl
  | cons m members ih => rw [everyMember, ih, List.all_cons]

theorem depthOfItems_le_iff {n : Nat} {items : List Json} :
    depthOfItems items ≤ n ↔ ∀ j ∈ items, j.depth ≤ n := by
  induction items with
  | nil => simp [depthOfItems]
  | cons j items ih => rw [depthOfItems, Nat.max_le, ih, List.forall_mem_cons]

theorem depthOfMembers_le_iff {n : Nat} {members : List (Literal × Json)} :
    depthOfMembers members ≤ n ↔ ∀ m ∈ members, m.2.depth ≤ n := by
  induction members with
  | nil => simp [depthOfMembers]
  | cons m members ih => rw [depthOfMembers, Nat.max_le, ih, List.forall_mem_cons]

/-- A value that may be skipped: no control character stands raw in a literal. -/
def skippable (j : Json) : Bool := j.every (!·.control) (fun _ => true)

def Number.inRange : Number → Bool
  | .outOfRange => false
  | _ => true

/-- The deepest nesting that a kept value may have. -/
def maxDepth : Nat := 127

/-- A value that may be kept for a later look: all its literals are text, its numbers are in
range, and it is not nested too deep. -/
def keepable (j : Json) : Bool :=
  j.every (·.text?.isSome) Number.inRange && j.depth ≤ maxDepth

def text? : Json → Option String
  | .string s => s.text?
  | _ => none

def bool? : Json → Option Bool
  | .bool b => some b
  | _ => none

/-- A whole number of at most `limit`. -/
def natural? (limit : Nat) : Json → Option Nat
  | .number (.natural n) => if n ≤ limit then some n else none
  | _ => none

def uint8? (j : Json) : Option UInt8 := (j.natural? (UInt8.size - 1)).map UInt8.ofNat

def uint16? (j : Json) : Option UInt16 := (j.natural? (UInt16.size - 1)).map UInt16.ofNat

def uint32? (j : Json) : Option UInt32 := (j.natural? (UInt32.size - 1)).map UInt32.ofNat

def uint64? (j : Json) : Option UInt64 := (j.natural? (UInt64.size - 1)).map UInt64.ofNat

/-- A number as a double; whole numbers go to the nearest one. -/
def real? : Json → Option Float
  | .number (.natural n) => some (UInt64.ofNat n).toFloat
  | .number (.negative n) => some (-(UInt64.ofNat n).toFloat)
  | .number (.real x) => some x
  | _ => none

def items? : Json → Option (List Json)
  | .array items => some items
  | _ => none

/-- Null as none, and any other value through `read`. -/
def optional? {α : Type} (read : Json → Option α) : Json → Option (Option α)
  | .null => some none
  | j => (read j).map some

/-- An array, each item through `read`. -/
def list? {α : Type} (read : Json → Option α) : Json → Option (List α)
  | .array items => items.mapM read
  | _ => none

@[simp] theorem bool?_bool (b : Bool) : (bool b).bool? = some b := rfl

@[simp] theorem text?_text (s : String) : (text s).text? = some s := Literal.text?_ofString s

@[simp] theorem natural?_natural {n limit : Nat} (h : n ≤ limit) :
    (natural n).natural? limit = some n := by
  simp [natural, natural?, h]

end Json
end ServiceDirectory
