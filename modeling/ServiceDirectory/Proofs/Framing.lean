import ServiceDirectory.Framing

/-! Messages that go over a stream one after the other. However many bytes a stream takes or gives
at a time, what has been written is the frames of the messages in a row, and reading them back gives
the messages and leaves nothing. A message that is too long leaves no trace on the stream. -/
namespace ServiceDirectory

namespace Outlet

/-- The stream has taken some more bytes, in any number of writes. -/
def Took (o : Outlet) (bytes : ByteArray) (o' : Outlet) : Prop :=
  ∃ w, o' = { o with written := o.written ++ bytes, writes := w }

theorem Took.trans {o o' o'' : Outlet} {a b : ByteArray} (h : o.Took a o') (more : o'.Took b o'') :
    o.Took (a ++ b) o'' := by
  obtain ⟨w, rfl⟩ := h
  obtain ⟨w', rfl⟩ := more
  exact ⟨w', by rw [ByteArray.append_assoc]⟩

theorem took_empty (o : Outlet) : o.Took .empty o := ⟨o.writes, by rw [ByteArray.append_empty]⟩

def room (o : Outlet) (n : Nat) : Nat :=
  match o.limit with
  | none => n
  | some l => min n (l - o.written.size)

theorem room_le (o : Outlet) (n : Nat) : o.room n ≤ n := by
  unfold room
  split <;> omega

theorem room_of_unlimited {o : Outlet} (h : o.limit = none) (n : Nat) : o.room n = n := by
  rw [room, h]

theorem room_eq_min (o : Outlet) {m n : Nat} (h : m ≤ n) : o.room m = min m (o.room n) := by
  unfold room
  split <;> omega

theorem capacity_eq (o : Outlet) (n : Nat) :
    o.capacity n = min (o.room n) (max (o.chunk o.writes) 1) := by
  unfold capacity room
  cases o.limit with
  | none => rfl
  | some l =>
    simp only
    omega

theorem Took.room {o o' : Outlet} {bytes : ByteArray} (h : o.Took bytes o') (n : Nat) :
    o'.room n = o.room (bytes.size + n) - bytes.size := by
  obtain ⟨w, rfl⟩ := h
  unfold Outlet.room
  cases o.limit with
  | none => simp
  | some l =>
    simp only [ByteArray.size_append]
    omega

theorem took_writeFrom (o : Outlet) {bytes : ByteArray} {start : Nat} (h : start ≤ bytes.size) :
    o.Took (bytes.extract start (start + o.room (bytes.size - start)))
        (o.writeFrom bytes start).2 ∧
      (o.writeFrom bytes start).1 =
        if o.room (bytes.size - start) < bytes.size - start then .error o.fault else .ok () := by
  fun_induction writeFrom o bytes start with
  | case1 o start done =>
    have none : o.room (bytes.size - start) = 0 := by
      have := o.room_le (bytes.size - start)
      omega
    rw [none, Nat.add_zero, ByteArray.extract_same, if_neg (by omega)]
    exact ⟨o.took_empty, rfl⟩
  | case2 o start more full =>
    have none : o.room (bytes.size - start) = 0 := by
      rw [capacity_eq] at full
      omega
    rw [none, Nat.add_zero, ByteArray.extract_same, if_pos (by omega)]
    exact ⟨⟨o.writes + 1, by rw [ByteArray.append_empty]⟩, rfl⟩
  | case3 o start more n taken ih =>
    -- One write takes `n + 1` bytes; what the rest of the writes take goes behind them.
    rw [capacity_eq] at taken
    have fits := o.room_le (bytes.size - start)
    have once : o.Took (bytes.extract start (start + (n + 1))) { o with
        written := o.written ++ bytes.extract start (start + (n + 1)), writes := o.writes + 1 } :=
      ⟨o.writes + 1, rfl⟩
    have size : (bytes.extract start (start + (n + 1))).size = n + 1 := by
      rw [ByteArray.size_extract]
      omega
    obtain ⟨rest, result⟩ := ih (by omega)
    have total : n + 1 + (bytes.size - (start + (n + 1))) = bytes.size - start := by omega
    rw [once.room, size, total] at rest result
    refine ⟨?_, ?_⟩
    · have stop : start + (n + 1) + (o.room (bytes.size - start) - (n + 1)) =
          start + o.room (bytes.size - start) := by omega
      rw [stop] at rest
      rw [ByteArray.extract_eq_extract_append_extract (start + (n + 1)) (by omega) (by omega)]
      exact once.trans rest
    · have short : o.room (bytes.size - start) - (n + 1) < bytes.size - (start + (n + 1)) ↔
          o.room (bytes.size - start) < bytes.size - start := by omega
      simp only [result, short]

theorem exists_writeAll (o : Outlet) (bytes : ByteArray) :
    ∃ o', o.writeAll bytes =
        (if o.room bytes.size < bytes.size then .error o.fault else .ok (), o') ∧
      o.Took (bytes.extract 0 (o.room bytes.size)) o' := by
  have all := o.took_writeFrom (Nat.zero_le bytes.size)
  rw [Nat.zero_add, Nat.sub_zero] at all
  exact ⟨_, Prod.ext all.2 rfl, all.1⟩

end Outlet

namespace Inlet

def Ahead (i : Inlet) (bytes : ByteArray) : Prop :=
  ∃ front, i.bytes = front ++ bytes ∧ front.size = i.position

theorem Ahead.left {i : Inlet} {bytes : ByteArray} (h : i.Ahead bytes) : i.left = bytes.size := by
  obtain ⟨front, all, here⟩ := h
  rw [Inlet.left, all, ByteArray.size_append, ← here]
  omega

theorem readOnto_of_le_left {i : Inlet} {n : Nat} (got : ByteArray) (h : n ≤ i.left) :
    ∃ r, i.readOnto got n = (.ok (got ++ i.bytes.extract i.position (i.position + n)),
      { i with position := i.position + n, reads := r }) := by
  fun_induction readOnto i got n with
  | case1 i got =>
    refine ⟨i.reads, ?_⟩
    rw [Nat.add_zero, ByteArray.extract_same, ByteArray.append_empty]
  | case2 i got n more dry =>
    rw [supply] at dry
    omega
  | case3 i got n more k given ih =>
    have few := i.supply_le n
    rw [given] at few
    obtain ⟨r, rest⟩ := ih (by simp only [Inlet.left] at h ⊢; omega)
    have stop : i.position + (k + 1) + (n - (k + 1)) = i.position + n := by omega
    refine ⟨r, ?_⟩
    rw [rest, stop, ByteArray.append_assoc,
      ← ByteArray.extract_eq_extract_append_extract _ (by omega) (by omega)]

theorem readExact_of_ahead {i : Inlet} {a rest : ByteArray} (h : i.Ahead (a ++ rest)) :
    ∃ j, i.readExact a.size = (.ok a, j) ∧ j.bytes = i.bytes ∧ j.Ahead rest := by
  have enough : a.size ≤ i.left := by
    rw [h.left, ByteArray.size_append]
    omega
  obtain ⟨r, read⟩ := readOnto_of_le_left .empty enough
  obtain ⟨front, all, here⟩ := h
  have next : i.bytes.extract i.position (i.position + a.size) = a := by
    rw [all, ← ByteArray.append_assoc, ← here, ← ByteArray.size_append,
      ByteArray.extract_append_size_left]
    exact ByteArray.extract_append_eq_right rfl ByteArray.size_append
  rw [next, ByteArray.empty_append] at read
  refine ⟨_, read, rfl, front ++ a, ?_, ?_⟩
  · rw [all, ByteArray.append_assoc]
  · rw [ByteArray.size_append, here]

end Inlet

namespace Framing

/-- What becomes of a message on a stream that has no faults. -/
def outcome (b : ByteArray) : Except Failure Unit :=
  if maxSize < b.size then .error (tooLarge b.size) else .ok ()

def stream : List ByteArray → ByteArray
  | [] => .empty
  | b :: rest => frame b ++ stream rest

def sendAll (o : Outlet) : List ByteArray → List (Except Failure Unit) × Outlet
  | [] => ([], o)
  | b :: rest => ((send o b).1 :: (sendAll (send o b).2 rest).1, (sendAll (send o b).2 rest).2)

def receiveAll (i : Inlet) : Nat → List (Except Failure ByteArray) × Inlet
  | 0 => ([], i)
  | n + 1 => ((receive i).1 :: (receiveAll (receive i).2 n).1, (receiveAll (receive i).2 n).2)

theorem send_of_tooLarge (o : Outlet) {b : ByteArray} (h : maxSize < b.size) :
    send o b = (.error (tooLarge b.size), o) := by
  rw [send, if_pos h]

theorem extract_frame {b : ByteArray} {n : Nat} :
    (frame b).extract 0 n = (header b.size).extract 0 n ++ b.extract 0 (n - 4) := by
  rw [frame, ByteArray.extract_append, size_header, Nat.zero_sub]

theorem extract_frame_of_le {b : ByteArray} {n : Nat} (h : 4 ≤ n) :
    (frame b).extract 0 n = header b.size ++ b.extract 0 (n - 4) := by
  rw [extract_frame, ← Nat.max_eq_left h, ← size_header b.size, ByteArray.extract_zero_max_size]

/-- A stream takes as much of a frame as there is room for. If the room is too small, or what was
taken cannot be flushed, sending fails. -/
theorem send_eq (o : Outlet) {b : ByteArray} (fits : b.size ≤ maxSize) :
    o.Took ((frame b).extract 0 (o.room (frame b).size)) (send o b).2 ∧
      (send o b).1 =
        if o.room (frame b).size < 4 then .error (failure "writing length prefix" o.fault)
        else if o.room (frame b).size < (frame b).size then .error (failure "writing data" o.fault)
        else
          match o.flushFault with
          | none => .ok ()
          | some f => .error (failure "flushing stream" f) := by
  obtain ⟨o₁, head, took⟩ := o.exists_writeAll (header b.size)
  rw [size_header, o.room_eq_min (n := (frame b).size) (by rw [size_frame]; omega)] at head took
  rw [send, if_neg (Nat.not_lt.mpr fits), head]
  by_cases short : o.room (frame b).size < 4
  · have none : b.extract 0 (o.room (frame b).size - 4) = .empty := by
      rw [Nat.sub_eq_zero_of_le (Nat.le_of_lt short), ByteArray.extract_same]
    rw [Nat.min_eq_right (Nat.le_of_lt short)] at took ⊢
    rw [extract_frame, if_pos short, if_pos short, none, ByteArray.append_empty]
    exact ⟨took, rfl⟩
  · rw [Nat.min_eq_left (Nat.not_lt.mp short)] at took ⊢
    rw [← size_header b.size, ByteArray.extract_zero_size] at took
    obtain ⟨o₂, body, more⟩ := o₁.exists_writeAll b
    rw [took.room, size_header, ← size_frame] at body more
    have same : o₁.fault = o.fault ∧ o₂.flushFault = o.flushFault := by
      obtain ⟨w, rfl⟩ := took
      obtain ⟨w', rfl⟩ := more
      exact ⟨rfl, rfl⟩
    have lacks : o.room (frame b).size - 4 < b.size ↔ o.room (frame b).size < (frame b).size := by
      have size := size_frame b
      omega
    rw [extract_frame_of_le (Nat.not_lt.mp short), if_neg (Nat.lt_irrefl 4), if_neg short]
    simp only [body, lacks, same.1]
    by_cases cut : o.room (frame b).size < (frame b).size
    · rw [if_pos cut, if_pos cut]
      exact ⟨took.trans more, rfl⟩
    · rw [if_neg cut, if_neg cut]
      simp only [Outlet.flush, same.2]
      cases o.flushFault with
      | none => exact ⟨took.trans more, rfl⟩
      | some f => exact ⟨took.trans more, rfl⟩

theorem send_of_le {o : Outlet} {b : ByteArray} (unlimited : o.limit = none)
    (flushes : o.flushFault = none) (h : b.size ≤ maxSize) :
    ∃ o', send o b = (.ok (), o') ∧ o.Took (frame b) o' := by
  obtain ⟨took, result⟩ := send_eq o h
  rw [Outlet.room_of_unlimited unlimited] at took result
  rw [ByteArray.extract_zero_size] at took
  rw [if_neg (by rw [size_frame]; omega), if_neg (Nat.lt_irrefl _), flushes] at result
  exact ⟨_, Prod.ext result rfl, took⟩

theorem sendAll_eq {o : Outlet} (unlimited : o.limit = none) (flushes : o.flushFault = none)
    (messages : List ByteArray) :
    (sendAll o messages).1 = messages.map outcome ∧
      o.Took (stream (messages.filter (·.size ≤ maxSize))) (sendAll o messages).2 := by
  induction messages generalizing o with
  | nil => exact ⟨rfl, o.took_empty⟩
  | cons b rest ih =>
    by_cases large : maxSize < b.size
    · obtain ⟨results, took⟩ := ih unlimited flushes
      have skipped : (b :: rest).filter (·.size ≤ maxSize) = rest.filter (·.size ≤ maxSize) :=
        List.filter_cons_of_neg (by simpa using large)
      rw [sendAll, send_of_tooLarge o large, results, skipped, List.map_cons, outcome, if_pos large]
      exact ⟨rfl, took⟩
    · obtain ⟨o', sent, took⟩ := send_of_le unlimited flushes (Nat.not_lt.mp large)
      obtain ⟨results, more⟩ : (sendAll o' rest).1 = rest.map outcome ∧
          o'.Took (stream (rest.filter (·.size ≤ maxSize))) (sendAll o' rest).2 := by
        obtain ⟨w, rfl⟩ := took
        exact ih unlimited flushes
      have kept : (b :: rest).filter (·.size ≤ maxSize) = b :: rest.filter (·.size ≤ maxSize) :=
        List.filter_cons_of_pos (by simpa using large)
      rw [sendAll, sent, results, kept, List.map_cons, outcome, if_neg large]
      exact ⟨rfl, took.trans more⟩

theorem receive_of_ahead {i : Inlet} {b rest : ByteArray} (fits : b.size ≤ maxSize)
    (h : i.Ahead (frame b ++ rest)) :
    ∃ j, receive i = (.ok b, j) ∧ j.bytes = i.bytes ∧ j.Ahead rest := by
  rw [frame, ByteArray.append_assoc] at h
  obtain ⟨j, head, same, h⟩ := Inlet.readExact_of_ahead h
  obtain ⟨k, body, same', h⟩ := Inlet.readExact_of_ahead h
  have size : length (header b.size) = b.size :=
    length_header (Nat.lt_of_le_of_lt fits maxSize_lt)
  rw [size_header] at head
  refine ⟨k, ?_, same'.trans same, h⟩
  rw [receive, head]
  simp only [size, if_neg (Nat.not_lt.mpr fits), body]

theorem receiveAll_of_ahead {i : Inlet} {messages : List ByteArray} {rest : ByteArray}
    (fit : ∀ b ∈ messages, b.size ≤ maxSize) (h : i.Ahead (stream messages ++ rest)) :
    ∃ j, receiveAll i messages.length = (messages.map .ok, j) ∧ j.bytes = i.bytes ∧
      j.Ahead rest := by
  induction messages generalizing i with
  | nil =>
    rw [stream, ByteArray.empty_append] at h
    exact ⟨i, rfl, rfl, h⟩
  | cons b messages ih =>
    rw [stream, ByteArray.append_assoc] at h
    obtain ⟨j, read, same, h⟩ := receive_of_ahead (fit b List.mem_cons_self) h
    obtain ⟨k, all, same', h⟩ := ih (fun b hb => fit b (List.mem_cons_of_mem _ hb)) h
    refine ⟨k, ?_, same'.trans same, h⟩
    rw [List.length_cons, receiveAll, read, all]
    rfl

/-- Messages are written one after the other to a stream that takes any number of bytes at a time,
and then read from one that gives any number at a time. Those that are too long are refused with
nothing written, so the stream has the frames of the others in a row; these are read back as they
were, and that takes up all bytes that were written. -/
theorem messages_pass (messages : List ByteArray) (taken given : Nat → Nat)
    (fault : Option StreamFault) :
    let sent := sendAll { chunk := taken } messages
    let short := messages.filter (·.size ≤ maxSize)
    let received := receiveAll { bytes := sent.2.written, chunk := given, fault } short.length
    sent.1 = messages.map (fun b =>
      if maxSize < b.size then .error (tooLarge b.size) else .ok ()) ∧
    sent.2.written = stream short ∧ received.1 = short.map .ok ∧
    received.2.position = sent.2.written.size := by
  intro sent short received
  obtain ⟨results, w, took⟩ := sendAll_eq (o := { chunk := taken }) rfl rfl messages
  have written : sent.2.written = stream short := by
    rw [took]
    exact ByteArray.empty_append
  have ahead : Inlet.Ahead { bytes := sent.2.written, chunk := given, fault }
      (stream short ++ .empty) :=
    ⟨.empty, by rw [written, ByteArray.append_empty, ByteArray.empty_append], rfl⟩
  have fit : ∀ b ∈ short, b.size ≤ maxSize := fun b hb => by
    simpa using (List.mem_filter.mp hb).2
  obtain ⟨j, read, same, front, all, position⟩ := receiveAll_of_ahead fit ahead
  refine ⟨results, written, congrArg Prod.fst read, ?_⟩
  rw [ByteArray.append_empty, same] at all
  calc received.2.position
      = j.position := congrArg (·.2.position) read
    _ = front.size := position.symm
    _ = sent.2.written.size := congrArg ByteArray.size all.symm

end Framing
end ServiceDirectory
