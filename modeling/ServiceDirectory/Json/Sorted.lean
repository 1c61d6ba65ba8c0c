import ServiceDirectory.Json.Value

/-! Values with the members of all objects in the rising order of their keys. Of members with the
same key the last one counts. -/
namespace ServiceDirectory.Json

/-- Puts a member at its place, instead of one with the same key. -/
def place (key : Literal) (j : Json) : List (Literal × Json) → List (Literal × Json)
  | [] => [(key, j)]
  | (k, i) :: rest =>
    if key = k then (key, j) :: rest
    else if key.bytes < k.bytes then (key, j) :: (k, i) :: rest
    else (k, i) :: place key j rest

mutual

def sorted : Json → Json
  | .array items => .array (sortedItems items)
  | .object members => .object (sortedMembers members [])
  | j => j

def sortedItems : List Json → List Json
  | [] => []
  | j :: rest => sorted j :: sortedItems rest

/-- Places the members among those that came before. -/
def sortedMembers : List (Literal × Json) → List (Literal × Json) → List (Literal × Json)
  | [], done => done
  | (k, j) :: rest, done => sortedMembers rest (place k (sorted j) done)

end

end ServiceDirectory.Json
