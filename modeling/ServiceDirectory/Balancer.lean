import ServiceDirectory.Failure
import ServiceDirectory.Instance

/-! Load balancers, which pick one instance out of a list of candidates. The round robin keeps a
cursor for each service. A vote on it makes two accesses to the cursors at most, each of them
atomic: it advances the cursor that is there, or else puts one in place and advances it. -/
namespace ServiceDirectory

/-- The position that comes next, and the length of the list of the last vote. -/
structure Cursor where
  next : Nat
  length : Nat
  deriving DecidableEq, Inhabited

/-- The position to pick in a list of the length `n`, and the cursor behind it. -/
def Cursor.advance (c : Cursor) (n : Nat) : Nat × Cursor :=
  (c.next % n, ⟨(c.next % n + 1) % n, n⟩)

structure RoundRobin where
  cursors : Dictionary Cursor := .empty
  deriving DecidableEq, Inhabited

namespace RoundRobin

def serviceCount (b : RoundRobin) : Nat := b.cursors.size

/-- Drops the cursor of a service. -/
def forget (b : RoundRobin) (service : String) : RoundRobin := ⟨b.cursors.erase service⟩

/-- The first access of a vote: advances the cursor of a service, if there is one. -/
def advancePresent (b : RoundRobin) (service : String) (n : Nat) : Option (Nat × RoundRobin) :=
  (b.cursors.get? service).map fun c =>
    ((c.advance n).1, ⟨b.cursors.insert service (c.advance n).2⟩)

/-- The second access of a vote: puts a cursor in place unless there is one by now, and advances
it. -/
def advanceOrPlace (b : RoundRobin) (service : String) (n : Nat) : Nat × RoundRobin :=
  let c := (b.cursors.get? service).getD ⟨0, n⟩
  ((c.advance n).1, ⟨b.cursors.insert service (c.advance n).2⟩)

/-- The position that a vote picks in a list of the length `n`. -/
def pick (b : RoundRobin) (service : String) (n : Nat) : Nat × RoundRobin :=
  (b.advancePresent service n).getD (b.advanceOrPlace service n)

theorem pick_eq_advanceOrPlace (b : RoundRobin) (service : String) (n : Nat) :
    b.pick service n = b.advanceOrPlace service n := by
  unfold pick advancePresent advanceOrPlace
  cases b.cursors.get? service <;> rfl

theorem pick_lt (b : RoundRobin) (service : String) {n : Nat} (h : 0 < n) :
    (b.pick service n).1 < n := by
  rw [pick_eq_advanceOrPlace]
  exact Nat.mod_lt _ h

/-- Picks the candidates of a service in turn. An empty list is refused and moves nothing. -/
def vote (b : RoundRobin) (service : String) (candidates : List ServiceInstance) :
    Except Failure ServiceInstance × RoundRobin :=
  match h : candidates with
  | [] => (.error (.emptyCandidates service), b)
  | _ :: _ =>
    let picked := b.pick service candidates.length
    (.ok (candidates.get ⟨picked.1, pick_lt b service (by simp [h])⟩), picked.2)

/-- Picks among the candidates that are up, in turn. -/
def voteHealthy (b : RoundRobin) (service : String) (candidates : List ServiceInstance) :
    Except Failure ServiceInstance × RoundRobin :=
  let healthy := candidates.filter (·.isUp)
  if healthy.isEmpty then (.error (.emptyCandidates service), b) else b.vote service healthy

end RoundRobin
end ServiceDirectory
