import ServiceDirectory.Codec.Bytes

/-! The size of request frames, counted without writing them. A payload is written as an array of
numbers, which takes up to four bytes for each of its own. -/
namespace ServiceDirectory

open Json

/-- How many bytes the array of a payload takes: the brackets, the digits, and the commas. -/
def payloadWidth (b : ByteArray) : Nat :=
  if b.data.isEmpty then 2
  else b.data.foldl (fun n x => n + (Decimal.digits x.toNat).length + 1) 1

/-- How many bytes a request frame takes. -/
def RequestFrame.size (r : RequestFrame) : Nat :=
  let bare := { r with payload := .empty }
  (ClientFrame.request bare).encode.size - 2 + payloadWidth r.payload

/-- The digits of a row of numbers, and a comma for each. -/
def numeralsWidth : List UInt8 → Nat
  | [] => 0
  | x :: xs => (Decimal.digits x.toNat).length + 1 + numeralsWidth xs

theorem foldl_width (xs : List UInt8) (n : Nat) :
    xs.foldl (fun n x => n + (Decimal.digits x.toNat).length + 1) n = n + numeralsWidth xs := by
  induction xs generalizing n with
  | nil => rfl
  | cons x xs ih => simp only [List.foldl_cons, ih, numeralsWidth]; omega

theorem write?_natural (n : Nat) : write? (natural n) = some (Number.digitBytes n) := by
  simp [natural, write?, writeNumber?]

theorem writeItems?_numbers (xs : List UInt8) :
    ∃ l, writeItems? false (xs.map fun x => natural x.toNat) = some l ∧
      l.length = numeralsWidth xs + 1 := by
  induction xs with
  | nil => exact ⟨[0x5D], by simp [writeItems?], rfl⟩
  | cons x xs ih =>
    obtain ⟨l, hl, hn⟩ := ih
    refine ⟨[0x2C] ++ Number.digitBytes x.toNat ++ l, ?_, ?_⟩
    · simp [writeItems?, write?_natural, hl]
    · simp [Number.digitBytes, hn, numeralsWidth]
      omega

theorem write?_payload (b : ByteArray) :
    ∃ l, write? (payloadToJson b) = some l ∧ l.length = payloadWidth b := by
  unfold payloadToJson payloadWidth
  rw [← Array.foldl_toList, foldl_width, ← Array.isEmpty_toList]
  generalize b.data.toList = xs
  cases xs with
  | nil => exact ⟨[0x5B, 0x5D], by simp [write?, writeItems?], by simp⟩
  | cons x xs =>
    obtain ⟨l, hl, hn⟩ := writeItems?_numbers xs
    refine ⟨0x5B :: (Number.digitBytes x.toNat ++ l), ?_, ?_⟩
    · simp [write?, writeItems?, write?_natural, hl]
    · simp [Number.digitBytes, hn, numeralsWidth]
      omega

theorem size_encode_request (r : RequestFrame) : (ClientFrame.request r).encode.size = r.size := by
  obtain ⟨l, hl, hn⟩ := write?_payload r.payload
  have he : write? (payloadToJson .empty) = some [0x5B, 0x5D] := by
    simp [payloadToJson, write?, writeItems?]
  unfold RequestFrame.size
  rw [← hn]
  simp only [ClientFrame.encode, ClientFrame.toJson, RequestFrame.members, ServiceDirectory.encode,
    bytes?, record, List.map_cons, List.map_nil, write?, writeMembers?, write?_natural, hl, he,
    OpCode.toJson, text, Option.bind_eq_bind, Option.bind_some, Option.pure_def, Option.map_some,
    Option.getD_some, List.size_toByteArray, List.length_cons, List.length_append]
  simp
  omega

theorem OpCode.length_wireName (op : OpCode) :
    (writeLiteral (Literal.ofString op.wireName)).length ≤ 27 := by
  cases op <;> decide

/-- A frame takes little more than its payload. -/
theorem RequestFrame.size_le (r : RequestFrame) : r.size ≤ 128 + payloadWidth r.payload := by
  have he : write? (payloadToJson .empty) = some [0x5B, 0x5D] := by
    simp [payloadToJson, write?, writeItems?]
  have small : r.xid.toNat < Nat.pow 10 (9 + 1) := Nat.lt_trans r.xid.toNat_lt (by decide)
  have digits : (Decimal.digits r.xid.toNat).length ≤ 10 := Decimal.length_digits_le small
  have op := r.op.length_wireName
  obtain ⟨type, request, xid, name, payload⟩ : (writeLiteral (Literal.ofString "type")).length = 6 ∧
      (writeLiteral (Literal.ofString "request")).length = 9 ∧
      (writeLiteral (Literal.ofString "xid")).length = 5 ∧
      (writeLiteral (Literal.ofString "op")).length = 4 ∧
      (writeLiteral (Literal.ofString "payload")).length = 9 := by decide
  unfold RequestFrame.size
  simp only [ClientFrame.encode, ClientFrame.toJson, RequestFrame.members, ServiceDirectory.encode,
    bytes?, record, List.map_cons, List.map_nil, write?, writeMembers?, write?_natural, he,
    OpCode.toJson, text, Option.bind_eq_bind, Option.bind_some, Option.pure_def, Option.map_some,
    Option.getD_some, List.size_toByteArray, List.length_cons, List.length_append]
  simp [Number.digitBytes]
  omega

end ServiceDirectory
