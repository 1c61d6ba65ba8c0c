import Mathlib.Data.List.Rotate
import ServiceDirectory.Roster

/-! The order in which a roster hands out its endpoints: the round that begins with the endpoint
whose turn it is. Taking a turn moves the round on by one. An endpoint that is to be passed over is
the last of the round if its turn would be next; otherwise it stays where it is. -/
namespace ServiceDirectory.Roster

variable {r : Roster} {e : Endpoint} {accept : Endpoint → Bool}

def round (r : Roster) : List Endpoint := r.endpoints.rotate r.turn

theorem mem_round : e ∈ r.round ↔ e ∈ r.endpoints := List.mem_rotate

theorem length_round (r : Roster) : r.round.length = r.size := List.length_rotate _ _

theorem turn_of_ne (h : r.avoid ≠ r.endpoints[r.cursor % r.size]?) :
    r.turn = r.cursor % r.size :=
  if_neg fun passed => h passed.2

theorem turn_of_eq (h : r.avoid = r.endpoints[r.cursor % r.size]?) :
    r.turn = (r.cursor + 1) % r.size := by
  unfold turn
  simp only [h, and_true]
  split
  · exact Nat.mod_add_mod _ _ _
  · have one : r.size = 1 := Nat.le_antisymm (Nat.le_of_not_lt ‹_›) r.size_pos
    rw [one, Nat.mod_one, Nat.mod_one]

theorem turn_advance (r : Roster) : r.advance.turn = (r.turn + 1) % r.size := by
  have none : r.advance.avoid ≠ r.advance.endpoints[r.advance.cursor % r.advance.size]? := by
    have inside : r.advance.cursor % r.advance.size < r.advance.endpoints.length :=
      Nat.mod_lt _ r.advance.size_pos
    rw [List.getElem?_eq_getElem inside]
    exact (Option.some_ne_none _).symm
  exact (turn_of_ne none).trans (Nat.mod_mod _ _)

theorem round_advance (r : Roster) : r.advance.round = r.round.rotate 1 := by
  rw [round, turn_advance, round, List.rotate_rotate]
  exact List.rotate_mod _ _

theorem head?_round (r : Roster) : r.round.head? = some r.peek := by
  rw [round, List.head?_rotate r.turn_lt]
  exact List.getElem?_eq_getElem r.turn_lt

theorem exists_cons_of_round {rest gone : List Endpoint} (round : r.round = rest ++ gone)
    (ahead : rest ≠ []) :
    ∃ rest', rest = r.peek :: rest' ∧ r.advance.round = rest' ++ (gone ++ [r.peek]) := by
  obtain ⟨x, rest', rfl⟩ := List.exists_cons_of_ne_nil ahead
  have first := r.head?_round
  rw [round] at first
  obtain rfl : x = r.peek := Option.some.inj first
  refine ⟨rest', rfl, ?_⟩
  rw [round_advance, round, List.cons_append, List.rotate_cons_succ, List.rotate_zero,
    List.append_assoc]

/-- The endpoint behind one that was handed out comes next, or the roster was replaced since. -/
def Follows (r : Roster) (e : Endpoint) : Prop :=
  r.cursor = 0 ∨ ∃ front rest, r.endpoints = front ++ e :: rest ∧
    r.cursor = (front.length + 1) % r.size

theorem follows_update {endpoints : List Endpoint} {r' : Roster}
    (h : r.update endpoints = .ok r') (e : Endpoint) : r'.Follows e := by
  unfold update at h
  split at h
  · cases h
  · obtain rfl := Except.ok.inj h
    exact .inl rfl

theorem avoid_update {endpoints : List Endpoint} {r' : Roster}
    (h : r.update endpoints = .ok r') : r'.avoid = r.avoid := by
  unfold update at h
  split at h
  · cases h
  · obtain rfl := Except.ok.inj h
    rfl

theorem follows_advance (r : Roster) : r.advance.Follows r.peek := by
  have inside : r.turn < r.endpoints.length := r.turn_lt
  refine .inr ⟨r.endpoints.take r.turn, r.endpoints.drop (r.turn + 1), ?_, ?_⟩
  · rw [endpoints_advance, peek, List.get_eq_getElem, ← List.drop_eq_getElem_cons inside,
      List.take_append_drop]
  · rw [List.length_take_of_le (Nat.le_of_lt inside)]
    rfl

section

variable {x : Endpoint} (distinct : r.endpoints.Nodup)
  (other : ∃ y ∈ r.endpoints, y ≠ e ∧ accept y = true)
  (found : r.round.find? accept = some x)
include distinct other found

theorem ne_of_last {others : List Endpoint} (last : r.round = others ++ [e]) : x ≠ e := by
  obtain ⟨y, listed, differs, passes⟩ := other
  have once : (others ++ [e]).Nodup := last ▸ List.nodup_rotate.mpr distinct
  have among : y ∈ others := by
    have hm : y ∈ others ++ [e] := last ▸ mem_round.mpr listed
    exact (List.mem_append.mp hm).resolve_right fun hy => differs (List.mem_singleton.mp hy)
  rw [last, List.find?_append] at found
  cases here : others.find? accept with
  | none => exact absurd passes (List.find?_eq_none.mp here y among)
  | some z =>
    rw [here] at found
    obtain rfl : z = x := Option.some.inj found
    rintro rfl
    exact (List.nodup_append.mp once).2.2 z (List.mem_of_find?_eq_some here) z
      List.mem_cons_self rfl

/-- Where an endpoint is marked and another one passes the test, the marked one is found if and only
if the roster was replaced and all that come before it then fail the test. -/
theorem find?_round_eq_marked_iff (marked : r.avoid = some e) (follows : r.Follows e) :
    x = e ↔ accept e = true ∧ r.cursor = 0 ∧
      ∃ front rest, r.endpoints = front ++ e :: rest ∧ front ≠ [] ∧
        ∀ y ∈ front, accept y = false := by
  by_cases start : r.cursor = 0
  · obtain ⟨a, tail, list⟩ := List.exists_cons_of_ne_nil r.nonempty
    have place : r.endpoints[r.cursor % r.size]? = some a := by rw [start, Nat.zero_mod, list]; rfl
    by_cases first : a = e
    · -- The marked one stands first and is passed over.
      subst first
      have last : r.round = tail ++ [a] := by
        have turn : r.turn = 1 % r.size := by rw [turn_of_eq (marked.trans place.symm), start]
        rw [round, turn, size, List.rotate_mod, list, List.rotate_cons_succ, List.rotate_zero]
      refine iff_of_false (ne_of_last distinct other found last) ?_
      rintro ⟨-, -, front, rest, split, notFirst, -⟩
      obtain ⟨b, front, rfl⟩ := List.exists_cons_of_ne_nil notFirst
      obtain ⟨rfl, tail_eq⟩ := List.cons.inj (list.symm.trans split)
      have once : a ∉ tail := (List.nodup_cons.mp (list ▸ distinct)).1
      exact once (tail_eq ▸ List.mem_append_right front List.mem_cons_self)
    · have turn : r.turn = 0 := by
        rw [turn_of_ne, start, Nat.zero_mod]
        rw [marked, place]
        exact fun same => first (Option.some.inj same).symm
      have search : r.endpoints.find? accept = some x := by
        rw [← found, round, turn, List.rotate_zero]
      constructor
      · rintro rfl
        obtain ⟨passes, front, rest, split, none⟩ := List.find?_eq_some_iff_append.mp search
        refine ⟨passes, start, front, rest, split, ?_, by simpa using none⟩
        rintro rfl
        exact first (List.cons.inj (list.symm.trans split)).1
      · rintro ⟨passes, -, front, rest, split, -, none⟩
        have hit : r.endpoints.find? accept = some e :=
          List.find?_eq_some_iff_append.mpr ⟨passes, front, rest, split, by simpa using none⟩
        exact Option.some.inj (search.symm.trans hit)
  · -- The cursor stands right behind the marked one, which comes last.
    refine iff_of_false ?_ fun h => start h.2.1
    obtain ⟨front, rest, split, cursor⟩ := follows.resolve_left start
    have size : r.size = front.length + 1 + rest.length := by
      rw [Roster.size, split, List.length_append, List.length_cons]
      omega
    obtain ⟨y, rest, rfl⟩ : ∃ y tail, rest = y :: tail := by
      refine List.exists_cons_of_ne_nil ?_
      rintro rfl
      rw [size, List.length_nil, Nat.add_zero, Nat.mod_self] at cursor
      exact start cursor
    have inside : front.length + 1 < r.size := by
      rw [size, List.length_cons]
      omega
    rw [Nat.mod_eq_of_lt inside] at cursor
    have place : r.endpoints[r.cursor % r.size]? = some y := by
      rw [cursor, Nat.mod_eq_of_lt inside, split]
      simp
    have turn : r.turn = (front ++ [e]).length := by
      rw [turn_of_ne, cursor, Nat.mod_eq_of_lt inside, List.length_append, List.length_singleton]
      rw [marked, place]
      intro same
      have behind : (e :: y :: rest).Nodup := (List.nodup_append.mp (split ▸ distinct)).2.1
      have once : e ∉ y :: rest := (List.nodup_cons.mp behind).1
      rw [Option.some.inj same] at once
      exact once List.mem_cons_self
    have whole : r.endpoints = (front ++ [e]) ++ (y :: rest) := by
      rw [split, List.append_assoc, List.singleton_append]
    have last : r.round = ((y :: rest) ++ front) ++ [e] := by
      rw [round, turn, whole, List.rotate_append_length_eq, List.append_assoc]
    exact ne_of_last distinct other found last

end

end ServiceDirectory.Roster
