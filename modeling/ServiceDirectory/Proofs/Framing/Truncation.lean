import ServiceDirectory.Proofs.Framing

/-! Streams that break off. Behind the last whole frame there may be too few bytes for a length, a
length that is too large, or fewer bytes than the length says; in each case reading fails, and it
never gives a message that was not sent. A write that breaks off leaves the front part of a
frame. -/
namespace ServiceDirectory

namespace Inlet

theorem fault_readOnto (i : Inlet) (got : ByteArray) (n : Nat) :
    (i.readOnto got n).2.fault = i.fault := by
  fun_induction readOnto i got n with
  | case1 => rfl
  | case2 => rfl
  | case3 i got n more k given ih => exact ih

theorem fault_of_readExact {i j : Inlet} {n : Nat} {r : Except StreamFault ByteArray}
    (h : i.readExact n = (r, j)) : j.fault = i.fault :=
  (congrArg (·.2.fault) h).symm.trans (i.fault_readOnto .empty n)

theorem readOnto_of_left_lt {i : Inlet} {n : Nat} (got : ByteArray) (h : i.left < n) :
    (i.readOnto got n).1 = .error (i.fault.getD earlyEof) := by
  fun_induction readOnto i got n with
  | case1 => exact absurd h (Nat.not_lt_zero _)
  | case2 => rfl
  | case3 i got n more k given ih =>
    have few := i.supply_le n
    have there := i.supply_le_left n
    rw [given] at few there
    refine ih ?_
    simp only [left] at h there ⊢
    omega

theorem left_of_readOnto_error {i j : Inlet} {got : ByteArray} {n : Nat} {f : StreamFault}
    (h : i.readOnto got n = (.error f, j)) : j.left = 0 := by
  fun_induction readOnto i got n with
  | case1 => cases h
  | case2 i got n more dry =>
    obtain ⟨-, rfl⟩ := Prod.mk.inj h
    rw [supply] at dry
    simp only [left] at dry ⊢
    omega
  | case3 i got n more k given ih => exact ih h

end Inlet

namespace Framing

theorem fault_receive (i : Inlet) : (receive i).2.fault = i.fault := by
  rw [receive]
  split
  · rename_i head
    exact Inlet.fault_of_readExact head
  · rename_i head
    split
    · exact Inlet.fault_of_readExact head
    · split
      · rename_i body
        exact (Inlet.fault_of_readExact body).trans (Inlet.fault_of_readExact head)
      · rename_i body
        exact (Inlet.fault_of_readExact body).trans (Inlet.fault_of_readExact head)

theorem left_of_receive_error {i j : Inlet} {f : Failure} (h : receive i = (.error f, j))
    (other : ∀ n, f ≠ tooLarge n) : j.left = 0 := by
  rw [receive] at h
  split at h
  · rename_i head
    obtain ⟨-, rfl⟩ := Prod.mk.inj h
    exact Inlet.left_of_readOnto_error head
  · split at h
    · obtain ⟨rfl, -⟩ : tooLarge _ = f ∧ _ = j := by simpa using h
      exact absurd rfl (other _)
    · split at h
      · rename_i body
        obtain ⟨-, rfl⟩ := Prod.mk.inj h
        exact Inlet.left_of_readOnto_error body
      · simp at h

/-- What stands where a message should stand, and the failure that reading it ends with; at the end
of the stream reading meets `fault`. -/
inductive Breaks (fault : StreamFault) : ByteArray → Failure → Prop where
  | header {rest : ByteArray} (short : rest.size < 4) :
    Breaks fault rest (failure "reading length prefix" fault)
  | length {head rest : ByteArray} (four : head.size = 4) (large : maxSize < length head) :
    Breaks fault (head ++ rest) (tooLarge (length head))
  | body {head rest : ByteArray} (four : head.size = 4) (fits : length head ≤ maxSize)
    (short : rest.size < length head) :
    Breaks fault (head ++ rest) (failure "reading data" fault)

theorem receive_of_left_lt {i : Inlet} (h : i.left < 4) :
    (receive i).1 = .error (failure "reading length prefix" (i.fault.getD Inlet.earlyEof)) := by
  have missing : (i.readExact 4).1 = .error (i.fault.getD Inlet.earlyEof) :=
    Inlet.readOnto_of_left_lt .empty h
  rw [receive, ← Prod.eta (i.readExact 4), missing]

theorem receive_of_breaks {i : Inlet} {rest : ByteArray} {f : Failure} (h : i.Ahead rest)
    (breaks : Breaks (i.fault.getD Inlet.earlyEof) rest f) : (receive i).1 = .error f := by
  cases breaks with
  | header short => exact receive_of_left_lt (by rwa [h.left])
  | length four large =>
    obtain ⟨j, head, -⟩ := Inlet.readExact_of_ahead h
    rw [four] at head
    rw [receive, head]
    simp only [if_pos large]
  | body four fits short =>
    obtain ⟨j, head, -, h⟩ := Inlet.readExact_of_ahead h
    rw [← h.left] at short
    have missing : (j.readExact _).1 = .error (j.fault.getD Inlet.earlyEof) :=
      Inlet.readOnto_of_left_lt .empty short
    rw [← Inlet.fault_of_readExact head]
    rw [four] at head
    rw [receive, head]
    simp only [if_neg (Nat.not_lt.mpr fits)]
    rw [← Prod.eta (j.readExact _), missing]

theorem header_length {b : ByteArray} (four : b.size = 4) : header (length b) = b := by
  obtain ⟨⟨bytes⟩⟩ := b
  match bytes, four with
  | [w, x, y, z], _ =>
    have total : length ⟨⟨[w, x, y, z]⟩⟩ =
        256 * (256 * (256 * w.toNat + x.toNat) + y.toNat) + z.toNat := by simp [length]
    have byte {m : Nat} {u : UInt8} (same : m % 256 = u.toNat) : UInt8.ofNat m = u :=
      UInt8.toNat_inj.mp (UInt8.toNat_ofNat'.trans same)
    have w' := w.toNat_lt
    have x' := x.toNat_lt
    have y' := y.toNat_lt
    have z' := z.toNat_lt
    rw [header, total, byte (u := w) (by omega), byte (u := x) (by omega),
      byte (u := y) (by omega), byte (u := z) (by omega)]
    rfl

theorem exists_append {bytes : ByteArray} {n : Nat} (h : n ≤ bytes.size) :
    ∃ front back, bytes = front ++ back ∧ front.size = n := by
  refine ⟨bytes.extract 0 n, bytes.extract n bytes.size, ?_, ?_⟩
  · rw [← ByteArray.extract_eq_extract_append_extract n (Nat.zero_le n) h,
      ByteArray.extract_zero_size]
  · rw [ByteArray.size_extract]
    omega

theorem exists_breaks (fault : StreamFault) (bytes : ByteArray) :
    ∃ bodies rest f, bytes = stream bodies ++ rest ∧ (∀ b ∈ bodies, b.size ≤ maxSize) ∧
      Breaks fault rest f := by
  have here {rest : ByteArray} {f : Failure} (breaks : Breaks fault rest f) :
      ∃ bodies rest' f, rest = stream bodies ++ rest' ∧ (∀ b ∈ bodies, b.size ≤ maxSize) ∧
        Breaks fault rest' f :=
    ⟨[], rest, f, ByteArray.empty_append.symm, by simp, breaks⟩
  induction size : bytes.size using Nat.strongRecOn generalizing bytes with
  | _ n ih =>
    by_cases short : bytes.size < 4
    · exact here (.header short)
    · obtain ⟨head, behind, rfl, four⟩ := exists_append (Nat.not_lt.mp short)
      by_cases large : maxSize < length head
      · exact here (.length four large)
      · by_cases few : behind.size < length head
        · exact here (.body four (Nat.not_lt.mp large) few)
        · obtain ⟨b, behind, rfl, whole⟩ := exists_append (Nat.not_lt.mp few)
          rw [ByteArray.size_append, ByteArray.size_append] at size
          obtain ⟨bodies, rest, f, rfl, fit, breaks⟩ := ih behind.size (by omega) behind rfl
          refine ⟨b :: bodies, rest, f, ?_, List.forall_mem_cons.mpr ⟨by omega, fit⟩, breaks⟩
          rw [stream, frame, whole, header_length four, ByteArray.append_assoc,
            ByteArray.append_assoc]

theorem breaks_of_cut {b : ByteArray} {n : Nat} (fault : StreamFault) (fits : b.size ≤ maxSize)
    (cut : n < (frame b).size) :
    ∃ doing, Breaks fault ((frame b).extract 0 n) (failure doing fault) := by
  by_cases short : n < 4
  · refine ⟨_, .header ?_⟩
    rw [ByteArray.size_extract]
    omega
  · have size : length (header b.size) = b.size :=
      length_header (Nat.lt_of_le_of_lt fits maxSize_lt)
    rw [size_frame] at cut
    rw [extract_frame_of_le (Nat.not_lt.mp short)]
    refine ⟨_, .body (size_header _) (by rwa [size]) ?_⟩
    rw [size, ByteArray.size_extract]
    omega

theorem stream_append (messages more : List ByteArray) :
    stream (messages ++ more) = stream messages ++ stream more := by
  induction messages with
  | nil => exact ByteArray.empty_append.symm
  | cons b messages ih => rw [List.cons_append, stream, ih, stream, ByteArray.append_assoc]

theorem stream_take_succ {messages : List ByteArray} {k : Nat} {b : ByteArray}
    (place : messages[k]? = some b) :
    stream (messages.take (k + 1)) = stream (messages.take k) ++ frame b := by
  obtain ⟨inside, rfl⟩ := List.getElem?_eq_some_iff.mp place
  rw [List.take_succ_eq_append_getElem inside, stream_append, stream, stream,
    ByteArray.append_empty]

theorem exists_cut {messages : List ByteArray} {n : Nat} (h : n < (stream messages).size) :
    ∃ k b m, messages[k]? = some b ∧ m < (frame b).size ∧ n = (stream (messages.take k)).size + m ∧
      (stream messages).extract 0 n = stream (messages.take k) ++ (frame b).extract 0 m := by
  induction messages generalizing n with
  | nil => exact absurd h (Nat.not_lt_zero n)
  | cons b messages ih =>
    by_cases here : n < (frame b).size
    · refine ⟨0, b, n, rfl, here, (Nat.zero_add n).symm, ?_⟩
      have none : (stream messages).extract (0 - (frame b).size) (n - (frame b).size) = .empty := by
        rw [Nat.zero_sub, Nat.sub_eq_zero_of_le (Nat.le_of_lt here), ByteArray.extract_same]
      rw [stream, ByteArray.extract_append, none, ByteArray.append_empty]
      exact ByteArray.empty_append.symm
    · rw [stream, ByteArray.size_append] at h
      obtain ⟨k, b', m, place, cut, size, bytes⟩ := ih (n := n - (frame b).size) (by omega)
      refine ⟨k + 1, b', m, place, cut, ?_, ?_⟩
      · rw [List.take_succ_cons, stream, ByteArray.size_append]
        omega
      · have whole : (frame b).extract 0 n = frame b := by
          rw [← Nat.max_eq_left (Nat.not_lt.mp here), ByteArray.extract_zero_max_size]
        rw [stream, ByteArray.extract_append, Nat.zero_sub, whole, bytes, List.take_succ_cons,
          stream, ByteArray.append_assoc]

theorem receiveAll_add (i : Inlet) (m n : Nat) :
    (receiveAll i (m + n)).1 = (receiveAll i m).1 ++ (receiveAll (receiveAll i m).2 n).1 := by
  induction m generalizing i with
  | zero => simp [receiveAll]
  | succ m ih => rw [Nat.succ_add, receiveAll, receiveAll, ih, List.cons_append]

theorem fault_receiveAll (i : Inlet) (n : Nat) : (receiveAll i n).2.fault = i.fault := by
  induction n generalizing i with
  | zero => rfl
  | succ n ih => exact (ih _).trans (fault_receive i)

theorem failure_earlyEof (doing : String) :
    failure doing Inlet.earlyEof = .connectionLoss (doing ++ ": " ++ "early eof") := rfl

theorem receiveAll_of_left_eq_zero {i : Inlet} (dry : i.left = 0) (ended : i.fault = none)
    (n : Nat) :
    (receiveAll i n).1 =
      List.replicate n (.error (.connectionLoss "reading length prefix: early eof")) := by
  induction n generalizing i with
  | zero => rfl
  | succ n ih =>
    have lost := receive_of_left_lt (i := i) (by omega)
    rw [ended, Option.getD_none, failure_earlyEof] at lost
    have still : (receive i).2.left = 0 :=
      left_of_receive_error (Prod.ext lost rfl) fun n h => nomatch h
    rw [receiveAll, lost, ih still ((fault_receive i).trans ended)]
    rfl

theorem written_sendAll {messages : List ByteArray} (fit : ∀ b ∈ messages, b.size ≤ maxSize)
    (taken : Nat → Nat) : (sendAll { chunk := taken } messages).2.written = stream messages := by
  obtain ⟨-, w, took⟩ := sendAll_eq (o := { chunk := taken }) rfl rfl messages
  rw [took, List.filter_eq_self.mpr fun b hb => decide_eq_true (fit b hb)]
  exact ByteArray.empty_append

/-- A front part of a stream is read as the messages that it has whole, then the connection is
lost. -/
theorem receiveAll_of_cut {messages : List ByteArray} (fit : ∀ b ∈ messages, b.size ≤ maxSize)
    {cut : Nat} (short : cut < (stream messages).size) {i : Inlet}
    (h : i.Ahead ((stream messages).extract 0 cut)) (ended : i.fault = none) :
    ∃ k < messages.length, (stream (messages.take k)).size ≤ cut ∧
      cut < (stream (messages.take (k + 1))).size ∧
      ∃ detail, ∀ n, (receiveAll i (k + 1 + n)).1 =
        (messages.take k).map .ok ++ .error (.connectionLoss detail) ::
          List.replicate n (.error (.connectionLoss "reading length prefix: early eof")) := by
  obtain ⟨k, b, m, place, inside, size, bytes⟩ := exists_cut short
  have less : k < messages.length := (List.getElem?_eq_some_iff.mp place).1
  rw [bytes] at h
  obtain ⟨j, read, -, h⟩ :=
    receiveAll_of_ahead (fun b hb => fit b (List.mem_of_mem_take hb)) h
  rw [List.length_take_of_le (Nat.le_of_lt less)] at read
  have ended' : j.fault = none := by
    have same := fault_receiveAll i k
    rw [read] at same
    exact same.trans ended
  obtain ⟨doing, breaks⟩ :=
    breaks_of_cut (j.fault.getD Inlet.earlyEof) (fit b (List.mem_of_getElem? place)) inside
  have lost := receive_of_breaks h breaks
  rw [ended', Option.getD_none, failure_earlyEof] at lost
  have dry : (receive j).2.left = 0 :=
    left_of_receive_error (Prod.ext lost rfl) fun n h => nomatch h
  refine ⟨k, less, by omega, ?_, doing ++ ": " ++ "early eof", fun n => ?_⟩
  · rw [stream_take_succ place, ByteArray.size_append]
    omega
  · rw [Nat.add_assoc, receiveAll_add, read, Nat.add_comm 1 n, receiveAll, lost,
      receiveAll_of_left_eq_zero dry ((fault_receive j).trans ended')]

/-- Truncation never makes a message. A stream that ends early, however it was written and however
it is read, gives the messages that it has whole, and then the connection is lost to every read. A
write that breaks off, after however many bytes, leaves the front part of the length and the
message, and is an error. -/
theorem truncation_never_passes :
    (∀ messages : List ByteArray, (∀ b ∈ messages, b.size ≤ maxSize) → ∀ taken given : Nat → Nat,
      let sent := (sendAll { chunk := taken } messages).2.written
      ∀ cut < sent.size, ∃ k < messages.length,
        (stream (messages.take k)).size ≤ cut ∧ cut < (stream (messages.take (k + 1))).size ∧
        ∃ detail, ∀ n,
          (receiveAll { bytes := sent.extract 0 cut, chunk := given } (k + 1 + n)).1 =
            (messages.take k).map .ok ++ .error (.connectionLoss detail) ::
              List.replicate n (.error (.connectionLoss "reading length prefix: early eof"))) ∧
    ∀ (o : Outlet) (b : ByteArray),
      let n := if maxSize < b.size then 0 else o.room (4 + b.size)
      (send o b).2.written = o.written ++ (header b.size ++ b).extract 0 n ∧
      (send o b).1 =
        if maxSize < b.size then .error (tooLarge b.size)
        else if n < 4 then .error (failure "writing length prefix" o.fault)
        else if n < 4 + b.size then .error (failure "writing data" o.fault)
        else
          match o.flushFault with
          | none => .ok ()
          | some f => .error (failure "flushing stream" f) := by
  refine ⟨?_, fun o b => ?_⟩
  · intro messages fit taken given sent cut short
    have written : sent = stream messages := written_sendAll fit taken
    rw [written] at short ⊢
    exact receiveAll_of_cut fit short ⟨.empty, ByteArray.empty_append.symm, rfl⟩ rfl
  · by_cases large : maxSize < b.size
    · simp only [if_pos large, send_of_tooLarge o large, ByteArray.extract_same,
        ByteArray.append_empty, and_self]
    · obtain ⟨⟨w, took⟩, result⟩ := send_eq o (Nat.not_lt.mp large)
      rw [size_frame] at took result
      simp only [if_neg large]
      exact ⟨by rw [took, frame], result⟩

/-- The stream ends in the length of the third message; the second one is empty. -/
theorem truncation_never_passes_of_three :
    let messages := [[1, 2, 3].toByteArray, .empty, [4].toByteArray]
    let sent := (sendAll { chunk := fun _ => 2 } messages).2.written
    (∀ b ∈ messages, b.size ≤ maxSize) ∧ 13 < sent.size ∧ ∃ detail,
      (receiveAll { bytes := sent.extract 0 13, chunk := fun n => n } 4).1 =
        [.ok [1, 2, 3].toByteArray, .ok .empty, .error (.connectionLoss detail),
          .error (.connectionLoss "reading length prefix: early eof")] := by
  intro messages sent
  have fit : ∀ b ∈ messages, b.size ≤ maxSize := by decide
  have short : 13 < sent.size := by
    rw [show sent = stream messages from written_sendAll fit _]
    decide
  obtain ⟨k, inside, before, behind, detail, read⟩ :=
    truncation_never_passes.1 messages fit (fun _ => 2) (fun n => n) 13 short
  obtain rfl : k = 2 := by
    match k with
    | 0 => exact absurd behind (by decide)
    | 1 => exact absurd behind (by decide)
    | 2 => rfl
    | k + 3 => exact absurd inside (by simp [messages])
  exact ⟨fit, short, detail, read 1⟩

end Framing
end ServiceDirectory
