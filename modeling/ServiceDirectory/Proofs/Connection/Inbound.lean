import ServiceDirectory.Connection.Reader
import ServiceDirectory.Proofs.Framing.Truncation

/-! What the reader of a session hands over. A message that does not decode has been read to its
end, so the next turn begins where the next frame begins. A stream that breaks off fails in another
way than a message that does not decode: the reader hands that failure over and stops. -/
namespace ServiceDirectory

open Framing

theorem ServerFrame.decode_error {b : ByteArray} {f : Failure} (h : decode b = .error f) :
    ∃ detail, f = .malformed detail := by
  unfold decode ServiceDirectory.decode at h
  split at h
  · cases h
  · exact ⟨_, (Except.error.inj h).symm⟩

def ServerFrame.ofMessage? (b : ByteArray) : Option ServerFrame := (ServerFrame.decode b).toOption

theorem ServerFrame.filterMap_filter_ofMessage? (bodies : List ByteArray) :
    (bodies.filter fun b => (ofMessage? b).isSome).filterMap ofMessage? =
      bodies.filterMap ofMessage? := by
  have passed (b : ByteArray) :
      (if (ofMessage? b).isSome then ofMessage? b else none) = ofMessage? b := by
    cases ofMessage? b <;> rfl
  simp only [List.filterMap_filter, passed]

theorem Framing.Breaks.ne_malformed {fault : StreamFault} {rest : ByteArray} {f : Failure}
    (h : Breaks fault rest f) (detail : String) : f ≠ .malformed detail := by
  have loss (doing : String) : failure doing fault ≠ .malformed detail := by
    unfold failure
    split <;> exact fun h => nomatch h
  cases h with
  | header => exact loss _
  | length => exact fun h => nomatch h
  | body => exact loss _

namespace FrameReader

variable {r : FrameReader}

theorem run_append (r : FrameReader) (first second : List Bool) :
    r.run (first ++ second) = (r.run first).run second :=
  List.foldl_append

theorem run_of_stopped (h : r.stopped = true) (heeded : List Bool) : r.run heeded = r := by
  induction heeded with
  | nil => rfl
  | cons taken heeded ih =>
    rw [run, List.foldl_cons, turn, if_pos h]
    exact ih

theorem turn_of_frame {b rest : ByteArray} (going : r.stopped = false) (fits : b.size ≤ maxSize)
    (h : r.inlet.Ahead (frame b ++ rest)) :
    ∃ i, r.turn true =
        { inlet := i, handed := r.handed ++ (ServerFrame.ofMessage? b).toList.map .ok } ∧
      i.fault = r.inlet.fault ∧ i.Ahead rest := by
  obtain ⟨i, read, -, ahead⟩ := receive_of_ahead fits h
  have same := fault_receive r.inlet
  rw [read] at same
  refine ⟨i, ?_, same, ahead⟩
  cases decoded : ServerFrame.decode b with
  | ok f =>
    have received : ServerFrame.receive r.inlet = (.ok f, i) := by
      rw [ServerFrame.receive, read, ← decoded]
    simp [turn, going, received, handOver, ServerFrame.ofMessage?, decoded, Except.toOption]
  | error f =>
    obtain ⟨detail, rfl⟩ := ServerFrame.decode_error decoded
    have received : ServerFrame.receive r.inlet = (.error (.malformed detail), i) := by
      rw [ServerFrame.receive, read, ← decoded]
    simp [turn, going, received, ServerFrame.ofMessage?, decoded, Except.toOption]

theorem turn_of_breaks {rest : ByteArray} {f : Failure} (going : r.stopped = false)
    (h : r.inlet.Ahead rest) (breaks : Breaks (r.inlet.fault.getD Inlet.earlyEof) rest f) :
    (r.turn true).handed = r.handed ++ [.error f] ∧ (r.turn true).stopped = true := by
  have lost : ServerFrame.receive r.inlet = (.error f, (receive r.inlet).2) := by
    rw [ServerFrame.receive, ← Prod.eta (receive r.inlet), receive_of_breaks h breaks]
  rw [turn, if_neg (by simp [going]), lost]
  split
  · rename_i malformed
    exact absurd (Except.error.inj (Prod.mk.inj malformed).1) (breaks.ne_malformed _)
  · rename_i result
    obtain ⟨rfl, -⟩ := Prod.mk.inj result
    exact ⟨rfl, rfl⟩

theorem run_of_stream {bodies : List ByteArray} {rest : ByteArray} (going : r.stopped = false)
    (fit : ∀ b ∈ bodies, b.size ≤ maxSize) (h : r.inlet.Ahead (stream bodies ++ rest)) :
    ∃ i, r.run (List.replicate bodies.length true) =
        { inlet := i, handed := r.handed ++ (bodies.filterMap ServerFrame.ofMessage?).map .ok } ∧
      i.fault = r.inlet.fault ∧ i.Ahead rest := by
  induction bodies generalizing r with
  | nil =>
    obtain ⟨inlet, stopped, handed⟩ := r
    obtain rfl : stopped = false := going
    rw [stream, ByteArray.empty_append] at h
    exact ⟨inlet, by simp [run], rfl, h⟩
  | cons b bodies ih =>
    obtain ⟨fits, fit⟩ := List.forall_mem_cons.mp fit
    rw [stream, ByteArray.append_assoc] at h
    obtain ⟨i, once, fault, h⟩ := turn_of_frame going fits h
    obtain ⟨j, later, fault', h⟩ := ih (r := r.turn true) (by rw [once]) fit (by rwa [once])
    rw [once] at fault'
    refine ⟨j, ?_, fault'.trans fault, h⟩
    rw [List.length_cons, List.replicate_succ, run, List.foldl_cons]
    refine later.trans ?_
    rw [once, List.append_assoc, ← List.map_append]
    cases frame : ServerFrame.ofMessage? b with
    | none => rw [List.filterMap_cons_none frame]; rfl
    | some f => rw [List.filterMap_cons_some frame]; rfl

/-- All turns behind the frames: the first hands the failure over, and the others nothing. -/
theorem run_of_stream_of_lt {bodies : List ByteArray} {rest : ByteArray} {f : Failure} {n : Nat}
    (going : r.stopped = false) (fit : ∀ b ∈ bodies, b.size ≤ maxSize)
    (h : r.inlet.Ahead (stream bodies ++ rest))
    (breaks : Breaks (r.inlet.fault.getD Inlet.earlyEof) rest f) (more : bodies.length < n) :
    (r.run (List.replicate n true)).stopped = true ∧
      (r.run (List.replicate n true)).handed =
        r.handed ++ (bodies.filterMap ServerFrame.ofMessage?).map .ok ++ [.error f] := by
  obtain ⟨m, rfl⟩ := Nat.exists_eq_add_of_lt more
  obtain ⟨i, read, fault, h⟩ := run_of_stream going fit h
  rw [← fault] at breaks
  obtain ⟨handed, stopped⟩ := turn_of_breaks (r := ⟨i, false, _⟩) rfl h breaks
  have all : r.run (List.replicate (bodies.length + m + 1) true) =
      (r.run (List.replicate bodies.length true)).turn true := by
    rw [Nat.add_assoc, ← List.replicate_append_replicate, run_append, read]
    exact run_of_stopped stopped _
  rw [all, read]
  exact ⟨stopped, handed⟩

/-- On any stream at all the reader hands over some frames and then one failure, and stops. -/
theorem run_stops {i : Inlet} (inside : i.position ≤ i.bytes.size) :
    ∃ (frames : List ServerFrame) (f : Failure) (least : Nat), ∀ n, least < n →
      (run { inlet := i } (List.replicate n true)).stopped = true ∧
      (run { inlet := i } (List.replicate n true)).handed = frames.map .ok ++ [.error f] := by
  obtain ⟨front, back, bytes, position⟩ := exists_append inside
  obtain ⟨bodies, rest, f, rfl, fit, breaks⟩ :=
    exists_breaks (i.fault.getD Inlet.earlyEof) back
  exact ⟨bodies.filterMap ServerFrame.ofMessage?, f, bodies.length, fun n more =>
    run_of_stream_of_lt rfl fit ⟨front, bytes, position⟩ breaks more⟩

/-! ### When nobody takes the results -/

theorem handed_turn (r : FrameReader) (taken : Bool) : r.handed <+: (r.turn taken).handed := by
  unfold turn handOver
  split
  · exact List.prefix_rfl
  · split
    · exact List.prefix_rfl
    · split
      · exact List.prefix_append _ _
      · exact List.prefix_rfl

theorem handed_run (r : FrameReader) (heeded : List Bool) : r.handed <+: (r.run heeded).handed := by
  induction heeded generalizing r with
  | nil => exact List.prefix_rfl
  | cons taken heeded ih => exact (r.handed_turn taken).trans (ih _)

theorem turn_false (r : FrameReader) :
    r.turn false = r.turn true ∨
      (r.turn false).stopped = true ∧ (r.turn false).handed = r.handed := by
  unfold turn
  split
  · exact .inl rfl
  · split
    · exact .inl rfl
    · exact .inr ⟨rfl, rfl⟩

/-- What is handed over until nobody takes it any more would have been handed over anyway. -/
theorem handed_run_replicate (r : FrameReader) (heeded : List Bool) :
    (r.run heeded).handed <+: (r.run (List.replicate heeded.length true)).handed := by
  induction heeded generalizing r with
  | nil => exact List.prefix_rfl
  | cons taken heeded ih =>
    rw [List.length_cons, List.replicate_succ, run, run, List.foldl_cons, List.foldl_cons]
    cases taken with
    | true => exact ih _
    | false =>
      rcases r.turn_false with same | ⟨stopped, handed⟩
      · rw [same]
        exact ih _
      · have still := run_of_stopped stopped heeded
        rw [run] at still
        rw [still, handed]
        exact (r.handed_turn true).trans (handed_run _ _)

theorem handed_run_le (r : FrameReader) {heeded : List Bool} {n : Nat} (h : heeded.length ≤ n) :
    (r.run heeded).handed <+: (r.run (List.replicate n true)).handed := by
  obtain ⟨more, rfl⟩ := Nat.exists_eq_add_of_le h
  rw [← List.replicate_append_replicate, run_append]
  exact (r.handed_run_replicate heeded).trans (handed_run _ _)

end FrameReader

/-- Messages that spell no frame do not put the reader of a session out of step. On a stream of
frames that breaks off at last, each turn reads one message to its end and hands its frame over, if
it spells one; the turn behind them hands over why the stream breaks off, and that is the last that
is handed over. Without the messages that spell no frame the same is handed over. Where somebody
stops taking the results, nothing else is handed over before. -/
theorem frames_handed_over {i : Inlet} {bodies : List ByteArray} {rest : ByteArray} {f : Failure}
    (fit : ∀ b ∈ bodies, b.size ≤ maxSize) (breaks : Breaks (i.fault.getD Inlet.earlyEof) rest f)
    (ahead : i.Ahead (stream bodies ++ rest)) :
    let reader (n : Nat) := FrameReader.run { inlet := i } (List.replicate n true)
    let frames (bodies : List ByteArray) : List (Except Failure ServerFrame) :=
      (bodies.filterMap ServerFrame.ofMessage?).map .ok
    (∀ n ≤ bodies.length, (reader n).stopped = false ∧
      (reader n).handed = frames (bodies.take n) ∧
      (reader n).inlet.Ahead (stream (bodies.drop n) ++ rest)) ∧
    (∀ n, bodies.length < n → (reader n).stopped = true ∧
      (reader n).handed = frames bodies ++ [.error f]) ∧
    (∀ j : Inlet, j.fault = i.fault →
      j.Ahead (stream (bodies.filter fun b => (ServerFrame.ofMessage? b).isSome) ++ rest) →
      ∀ n, bodies.length < n →
        (FrameReader.run { inlet := j } (List.replicate n true)).handed = (reader n).handed) ∧
    ∀ heeded, (FrameReader.run { inlet := i } heeded).handed <+: frames bodies ++ [.error f] := by
  intro reader frames
  have ended (n : Nat) (more : bodies.length < n) :
      (reader n).stopped = true ∧ (reader n).handed = frames bodies ++ [.error f] :=
    FrameReader.run_of_stream_of_lt rfl fit ahead breaks more
  refine ⟨fun n few => ?_, ended, fun j fault ahead' n more => ?_, fun heeded => ?_⟩
  · have parts : stream bodies ++ rest =
        stream (bodies.take n) ++ (stream (bodies.drop n) ++ rest) := by
      rw [← ByteArray.append_assoc, ← stream_append, List.take_append_drop]
    rw [parts] at ahead
    obtain ⟨k, read, -, ahead⟩ := FrameReader.run_of_stream (r := { inlet := i }) rfl
      (fun b hb => fit b (List.mem_of_mem_take hb)) ahead
    rw [List.length_take_of_le few] at read
    rw [show reader n = _ from read]
    exact ⟨rfl, rfl, ahead⟩
  · rw [← fault] at breaks
    have shorter := List.length_filter_le (fun b => (ServerFrame.ofMessage? b).isSome) bodies
    have same := (FrameReader.run_of_stream_of_lt (r := { inlet := j }) rfl
      (fun b hb => fit b (List.mem_filter.mp hb).1) ahead' breaks
      (Nat.lt_of_le_of_lt shorter more)).2
    rw [same, (ended n more).2, ServerFrame.filterMap_filter_ofMessage?]
    rfl
  · rw [← (ended (heeded.length + bodies.length + 1) (by omega)).2]
    exact FrameReader.handed_run_le _ (by omega)

/-- Frames between a byte that spells nothing, an empty message and a frame of the client, and then
a length that is too large, with a whole frame behind it. -/
theorem frames_handed_over_among_others :
    let bodies := [[0xFF].toByteArray, ServerFrame.pong.encode, .empty, ClientFrame.close.encode,
      ServerFrame.sessionExpired.encode]
    let rest := [1, 0, 0, 1].toByteArray ++ frame ServerFrame.pong.encode
    let i : Inlet := { bytes := stream bodies ++ rest, chunk := fun n => n }
    (∀ b ∈ bodies, b.size ≤ maxSize) ∧
      Breaks (i.fault.getD Inlet.earlyEof) rest (tooLarge 16777217) ∧
      i.Ahead (stream bodies ++ rest) ∧
      (FrameReader.run { inlet := i } (List.replicate 9 true)).handed =
        [.ok .pong, .ok .sessionExpired, .error (tooLarge 16777217)] := by
  intro bodies rest i
  have fit : ∀ b ∈ bodies, b.size ≤ maxSize := by decide +kernel
  have breaks : Breaks (i.fault.getD Inlet.earlyEof) rest (tooLarge 16777217) :=
    .length rfl (by decide)
  have ahead : i.Ahead (stream bodies ++ rest) := ⟨.empty, ByteArray.empty_append.symm, rfl⟩
  have spelled : bodies.filterMap ServerFrame.ofMessage? = [.pong, .sessionExpired] := rfl
  obtain ⟨-, handed⟩ := (frames_handed_over fit breaks ahead).2.1 9 (by decide)
  refine ⟨fit, breaks, ahead, handed.trans ?_⟩
  simp only [spelled]
  rfl

end ServiceDirectory
