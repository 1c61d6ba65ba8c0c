import ServiceDirectory.Endpoint.Grammar

/-! Rosters: the endpoints to connect to, handed out in turn. The endpoint of the last session is
passed over once, so that after a loss the next attempt goes elsewhere. -/
namespace ServiceDirectory

structure Roster where
  endpoints : List Endpoint
  /-- The position that comes next. -/
  cursor : Nat := 0
  /-- The endpoint to pass over at the next turn. -/
  avoid : Option Endpoint := none
  nonempty : endpoints ≠ []

namespace Roster

def size (r : Roster) : Nat := r.endpoints.length

theorem size_pos (r : Roster) : 0 < r.size := List.length_pos_iff.mpr r.nonempty

def ofEndpoints (endpoints : List Endpoint) : Except Failure Roster :=
  if h : endpoints = [] then .error .emptyRoster else .ok { endpoints, nonempty := h }

/-- Reads a list of endpoints; the first one that is malformed is the error. -/
def parseAll (servers : List String) : Except Failure (List Endpoint) := servers.mapM Endpoint.parse

def parse (servers : List String) : Except Failure Roster := do
  ofEndpoints (← parseAll servers)

/-- The position whose turn it is. -/
def turn (r : Roster) : Nat :=
  let i := r.cursor % r.size
  if 1 < r.size ∧ r.avoid = r.endpoints[i]? then (i + 1) % r.size else i

theorem turn_lt (r : Roster) : r.turn < r.size := by
  unfold turn
  simp only
  split
  · exact Nat.mod_lt _ r.size_pos
  · exact Nat.mod_lt _ r.size_pos

/-- The endpoint whose turn it is. -/
def peek (r : Roster) : Endpoint := r.endpoints.get ⟨r.turn, r.turn_lt⟩

/-- The roster once its turn is taken. -/
def advance (r : Roster) : Roster :=
  { r with cursor := (r.turn + 1) % r.size, avoid := none }

/-- Hands out the next endpoint. -/
def next (r : Roster) : Endpoint × Roster := (r.peek, r.advance)

/-- Notes the endpoint of a session that has just opened. -/
def markConnected (r : Roster) (e : Endpoint) : Roster := { r with avoid := some e }

/-- Replaces the endpoints and starts with the first of them; an empty list changes nothing. -/
def update (r : Roster) (endpoints : List Endpoint) : Except Failure Roster :=
  if h : endpoints = [] then .error .emptyRoster
  else .ok { r with endpoints, cursor := 0, nonempty := h }

def updateFromStrings (r : Roster) (servers : List String) : Except Failure Roster := do
  r.update (← parseAll servers)

@[simp] theorem size_advance (r : Roster) : r.advance.size = r.size := rfl

@[simp] theorem endpoints_advance (r : Roster) : r.advance.endpoints = r.endpoints := rfl

end Roster
end ServiceDirectory
