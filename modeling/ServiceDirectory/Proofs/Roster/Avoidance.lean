import ServiceDirectory.Proofs.Roster

/-! When the endpoint of the last session is handed out again at once. The turn moves on by one
position where that endpoint is next, and takes whatever stands there. A roster may list an endpoint
several times, so what stands there may be the same endpoint, although others are listed; where the
endpoint is listed once, this cannot happen. -/
namespace ServiceDirectory.Roster

/-- Replaces the endpoints several times; the first list that is refused is the error. -/
def updateAll (r : Roster) (lists : List (List Endpoint)) : Except Failure Roster :=
  lists.foldlM update r

inductive Reachable : Roster → Prop
  | made {endpoints r} (h : ofEndpoints endpoints = .ok r) : Reachable r
  | next {r} (earlier : Reachable r) : Reachable r.next.2
  | marked {r} (earlier : Reachable r) (e : Endpoint) : Reachable (r.markConnected e)
  | updated {endpoints r r'} (earlier : Reachable r) (h : r.update endpoints = .ok r') :
    Reachable r'

variable {r r' : Roster} {e : Endpoint} {lists : List (List Endpoint)}

theorem avoid_updateAll (h : r.updateAll lists = .ok r') : r'.avoid = r.avoid := by
  induction lists generalizing r with
  | nil => exact Except.ok.inj h ▸ rfl
  | cons first lists ih =>
    rw [updateAll, List.foldlM_cons] at h
    cases updated : r.update first with
    | error f =>
      rw [updated] at h
      cases h
    | ok r₁ =>
      rw [updated] at h
      exact (ih h).trans (avoid_update updated)

theorem exists_rotate_cursor (r : Roster) : ∃ a rest,
    r.endpoints.rotate r.cursor = a :: rest ∧ r.endpoints[r.cursor % r.size]? = some a := by
  have inside : r.cursor % r.size < r.endpoints.length := Nat.mod_lt _ r.size_pos
  have head : (r.endpoints.rotate r.cursor).head? = r.endpoints[r.cursor % r.size]? := by
    rw [← List.rotate_mod]
    exact List.head?_rotate inside
  rw [List.getElem?_eq_getElem inside] at head ⊢
  obtain ⟨rest, eq⟩ := List.head?_eq_some_iff.mp head
  exact ⟨_, rest, eq, rfl⟩

theorem round_of_marked {rest : List Endpoint} (marked : r.avoid = some e)
    (here : r.endpoints.rotate r.cursor = e :: rest)
    (place : r.endpoints[r.cursor % r.size]? = some e) : r.round = rest ++ [e] := by
  rw [round, turn_of_eq (marked.trans place.symm)]
  calc r.endpoints.rotate ((r.cursor + 1) % r.size)
      = r.endpoints.rotate (r.cursor + 1) := List.rotate_mod _ _
    _ = (r.endpoints.rotate r.cursor).rotate 1 := (List.rotate_rotate _ _ _).symm
    _ = rest ++ [e] := by rw [here, List.rotate_cons_succ, List.rotate_zero]

theorem round_of_not_marked (h : r.avoid ≠ r.endpoints[r.cursor % r.size]?) :
    r.round = r.endpoints.rotate r.cursor := by
  rw [round, turn_of_ne h]
  exact List.rotate_mod _ _

/-- The marked endpoint is handed out if it stands at the next two positions, and only then. -/
theorem peek_eq_marked_iff (marked : r.avoid = some e) (other : ∃ x ∈ r.endpoints, x ≠ e) :
    r.peek = e ↔ ∃ rest, r.endpoints.rotate r.cursor = e :: e :: rest := by
  obtain ⟨a, rest, here, place⟩ := r.exists_rotate_cursor
  have head := r.head?_round
  by_cases first : a = e
  · subst first
    obtain ⟨x, listed, differs⟩ := other
    have behind : x ∈ rest := by
      have hm : x ∈ a :: rest := here ▸ List.mem_rotate.mpr listed
      exact (List.mem_cons.mp hm).resolve_left differs
    obtain ⟨b, rest, rfl⟩ := List.exists_cons_of_ne_nil (List.ne_nil_of_mem behind)
    rw [round_of_marked marked here place] at head
    obtain rfl : b = r.peek := Option.some.inj head
    rw [here]
    constructor
    · intro same
      exact ⟨rest, by rw [same]⟩
    · rintro ⟨_, eq⟩
      exact (List.cons.inj (List.cons.inj eq).2).1
  · have unlike : r.avoid ≠ r.endpoints[r.cursor % r.size]? := by
      rw [marked, place]
      exact fun h => first (Option.some.inj h).symm
    rw [round_of_not_marked unlike, here] at head
    obtain rfl : a = r.peek := Option.some.inj head
    rw [here]
    exact iff_of_false first fun ⟨_, eq⟩ => first (List.cons.inj eq).1

/-- After a session on an endpoint, and however often the list was replaced since, the next turn is
the same endpoint's exactly if it stands at the next two positions. Listed once, it is passed
over. -/
theorem next_eq_marked_iff (replaced : (r.markConnected e).updateAll lists = .ok r')
    (other : ∃ x ∈ r'.endpoints, x ≠ e) :
    (r'.next.1 = e ↔ ∃ rest, r'.endpoints.rotate r'.cursor = e :: e :: rest) ∧
      (r'.endpoints.count e ≤ 1 → r'.next.1 ≠ e) := by
  have again := peek_eq_marked_iff (avoid_updateAll replaced) other
  refine ⟨again, fun once same => ?_⟩
  obtain ⟨rest, twice⟩ := again.mp same
  have count : r'.endpoints.count e = rest.count e + 2 := by
    rw [← (List.rotate_perm _ r'.cursor).count_eq, twice, List.count_cons_self,
      List.count_cons_self]
  omega

/-- A server that left the list and came back to it, in second place. -/
theorem next_eq_marked_iff_of_replaced : ∃ r' : Roster,
    (markConnected { endpoints := [⟨"a", 1⟩], nonempty := by simp } ⟨"a", 1⟩).updateAll
      [[⟨"c", 3⟩], [⟨"b", 2⟩, ⟨"a", 1⟩]] = .ok r' ∧
    (∃ x ∈ r'.endpoints, x ≠ ⟨"a", 1⟩) ∧ r'.endpoints.count ⟨"a", 1⟩ ≤ 1 ∧
    r'.next.1 ≠ ⟨"a", 1⟩ := by
  have other : ∃ x ∈ [(⟨"b", 2⟩ : Endpoint), ⟨"a", 1⟩], x ≠ ⟨"a", 1⟩ := by decide
  have once : [(⟨"b", 2⟩ : Endpoint), ⟨"a", 1⟩].count ⟨"a", 1⟩ ≤ 1 := by decide
  have replaced : (markConnected ⟨[⟨"a", 1⟩], 0, none, by simp⟩ ⟨"a", 1⟩).updateAll
      [[⟨"c", 3⟩], [⟨"b", 2⟩, ⟨"a", 1⟩]] =
      .ok ⟨[⟨"b", 2⟩, ⟨"a", 1⟩], 0, some ⟨"a", 1⟩, by simp⟩ := rfl
  exact ⟨_, replaced, other, once, (next_eq_marked_iff replaced other).2 once⟩

/-- One server listed three times: after a session on its first entry, the turn passes over the
second and comes to the third. -/
theorem exists_next_eq_marked : ∃ (r r' : Roster) (e : Endpoint) (lists : List (List Endpoint)),
    Reachable r ∧ (r.markConnected e).updateAll lists = .ok r' ∧ (∃ x ∈ r'.endpoints, x ≠ e) ∧
      r'.next.1 = e := by
  let listed : List Endpoint := [⟨"a", 1⟩, ⟨"a", 1⟩, ⟨"a", 1⟩, ⟨"b", 2⟩]
  let r : Roster := { endpoints := listed, nonempty := List.cons_ne_nil _ _ }
  have parsed : ofEndpoints listed = .ok r := rfl
  have reached : Reachable r.next.2 := (Reachable.made parsed).next
  exact ⟨r.next.2, r.next.2.markConnected ⟨"a", 1⟩, ⟨"a", 1⟩, [], reached, rfl, by decide,
    by decide⟩

end ServiceDirectory.Roster
