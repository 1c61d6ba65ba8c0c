import ServiceDirectory.Codec.Bytes
import ServiceDirectory.Proofs.Dictionary
import ServiceDirectory.Proofs.Json.Records

/-! Frames are decoded from their encodings as they were. For each part of a frame there are two
facts: its form is plain, so there are bytes that spell it, and its reader takes the form back. -/
namespace ServiceDirectory

open Json

/-! ### Errors -/

@[simp] theorem ErrorCode.plain_toJson {n : Nat} (c : ErrorCode) : Plain n c.toJson :=
  .uint16 c.number

@[simp] theorem ErrorCode.ofJson?_toJson (c : ErrorCode) : ofJson? c.toJson = some c := by
  simp [ofJson?, toJson]

theorem ServiceError.plain_toJson (e : ServiceError) : Plain 2 e.toJson := by
  have params : Plain 1 (.array (e.params.map text)) := .array (by simp)
  exact .record (by simp [params])

@[simp] theorem ServiceError.ofJson?_toJson (e : ServiceError) : ofJson? e.toJson = some e := by
  simp [ofJson?, toJson]

/-! ### Instances and notifications -/

@[simp] theorem OperationalStatus.plain_toJson {n : Nat} (s : OperationalStatus) :
    Plain n s.toJson :=
  .text s.display

@[simp] theorem OperationalStatus.ofJson?_toJson (kept : Bool) (s : OperationalStatus) :
    ofJson? kept s.toJson = some s := by
  rw [ofJson?, toJson, choice?_text]
  cases s <;> decide

theorem plain_metadataToJson (list : Listing) (d : Dictionary String) :
    Plain 1 (metadataToJson list d) := by
  refine .record fun m hm => ?_
  obtain ⟨e, -, rfl⟩ := List.mem_map.mp hm
  exact .text e.2

theorem metadataOfJson?_metadataToJson {list : Listing} {d : Dictionary String}
    (lists : (list d).Perm d.entries) : metadataOfJson? (metadataToJson list d) = some d := by
  simp only [metadataOfJson?, metadataToJson, record, List.map_map]
  rw [mapM_map_of fun e => by simp]
  simp [Dictionary.ofList_of_perm lists]

namespace ServiceInstance

theorem plain_toJsonIn (list : Listing) (i : ServiceInstance) : Plain 2 (i.toJsonIn list) := by
  have metadata := plain_metadataToJson list i.metadata
  have heartbeat : Plain 1 (optional (fun ms => natural ms.toNat) i.lastHeartbeatMs) :=
    .optional Plain.uint64 i.lastHeartbeatMs
  exact .record (by simp [metadata, heartbeat])

theorem ofJson?_toJsonIn {list : Listing} (lists : ∀ d, (list d).Perm d.entries) (kept : Bool)
    (i : ServiceInstance) : ofJson? kept (i.toJsonIn list) = some i := by
  have metadata := metadataOfJson?_metadataToJson (lists i.metadata)
  have heartbeat := optional?_optional uint64? rfl uint64?_natural i.lastHeartbeatMs
  simp [ofJson?, toJsonIn, fields, metadata, heartbeat]

end ServiceInstance

namespace Notification

theorem plain_members (list : Listing) (n : Notification) :
    ∀ m ∈ n.members list, Plain 2 m.2 := by
  cases n <;> simp [members, ServiceInstance.plain_toJsonIn]

theorem ofKept?_record {list : Listing} (lists : ∀ d, (list d).Perm d.entries) (inner : Bool)
    (n : Notification) : ofKept? inner (record (n.members list)) = some n := by
  have instance? := ServiceInstance.ofJson?_toJsonIn lists true
  cases n <;> simp [ofKept?, members, kinds, instance?]

end Notification

/-! ### Frames -/

@[simp] theorem OpCode.plain_toJson {n : Nat} (op : OpCode) : Plain n op.toJson :=
  .text op.wireName

@[simp] theorem OpCode.ofJson?_toJson (kept : Bool) (op : OpCode) :
    ofJson? kept op.toJson = some op := by
  rw [ofJson?, toJson, choice?_text, lookup_wireName]

theorem plain_payloadToJson (b : ByteArray) : Plain 1 (payloadToJson b) :=
  .array (by simp)

@[simp] theorem payloadOfJson?_payloadToJson (b : ByteArray) :
    payloadOfJson? (payloadToJson b) = some b := by
  have bytes := mapM_map_of uint8?_natural b.data.toList
  simp [payloadOfJson?, payloadToJson, bytes, Text.toByteArray_data_toList]

theorem Credentials.plain_toJson (c : Credentials) : Plain 1 c.toJson := .record (by simp)

@[simp] theorem Credentials.ofJson?_toJson (c : Credentials) : ofJson? c.toJson = some c := by
  simp [ofJson?, toJson]

theorem ConnectRequest.plain_members (r : ConnectRequest) : ∀ m ∈ r.members, Plain 1 m.2 := by
  have session : Plain 1 (optional (fun id => natural id.toNat) r.sessionId) :=
    .optional Plain.uint64 r.sessionId
  have credentials := Plain.optional Credentials.plain_toJson r.credentials
  simp [members, session, credentials]

@[simp] theorem ConnectRequest.ofJson?_record (r : ConnectRequest) :
    ofJson? (record r.members) = some r := by
  have session := optional?_optional uint64? rfl uint64?_natural r.sessionId
  have credentials :=
    optional?_optional Credentials.ofJson? rfl Credentials.ofJson?_toJson r.credentials
  simp [ofJson?, members, fields, session, credentials]

theorem ConnectResponse.plain_members (r : ConnectResponse) : ∀ m ∈ r.members, Plain 0 m.2 := by
  simp [members]

@[simp] theorem ConnectResponse.ofJson?_record (r : ConnectResponse) :
    ofJson? (record r.members) = some r := by
  simp [ofJson?, members]

theorem RequestFrame.plain_members (r : RequestFrame) : ∀ m ∈ r.members, Plain 1 m.2 := by
  simp [members, plain_payloadToJson]

@[simp] theorem RequestFrame.ofJson?_record (kept : Bool) (r : RequestFrame) :
    ofJson? kept (record r.members) = some r := by
  simp [ofJson?, members]

theorem ResponseFrame.plain_members (r : ResponseFrame) : ∀ m ∈ r.members, Plain 2 m.2 := by
  have error := Plain.optional ServiceError.plain_toJson r.error
  have payload := (plain_payloadToJson r.payload).mono (m := 2) (by decide)
  simp [members, error, payload]

@[simp] theorem ResponseFrame.ofJson?_record (r : ResponseFrame) :
    ofJson? (record r.members) = some r := by
  have error :=
    optional?_optional ServiceError.ofJson? rfl ServiceError.ofJson?_toJson r.error
  simp [ofJson?, members, error]

theorem ClientFrame.plain_toJson (f : ClientFrame) : Plain maxDepth f.toJson := by
  cases f with
  | connect r => exact (Plain.tagged r.plain_members).mono (by decide)
  | request r => exact (Plain.tagged r.plain_members).mono (by decide)
  | ping => exact .record (by simp)
  | close => exact .record (by simp)

theorem ClientFrame.ofJson?_toJson (f : ClientFrame) : ofJson? f.toJson = some f := by
  have keepable := f.plain_toJson.keepable (Nat.le_refl _)
  cases f with
  | connect r =>
    have tagged : Tagged.ofJson? "type" (connect r).toJson =
        some ⟨text "connect", record r.members⟩ :=
      Tagged.ofJson?_record (by simp [ConnectRequest.members])
    rw [ofJson?, guard_bind keepable, tagged]
    simp [kinds]
  | request r =>
    have tagged : Tagged.ofJson? "type" (request r).toJson =
        some ⟨text "request", record r.members⟩ :=
      Tagged.ofJson?_record (by simp [RequestFrame.members])
    rw [ofJson?, guard_bind keepable, tagged]
    simp [kinds]
  | ping => rfl
  | close => rfl

theorem ServerFrame.plain_toJsonIn (list : Listing) (f : ServerFrame) :
    Plain maxDepth (f.toJsonIn list) := by
  cases f with
  | connected r => exact (Plain.tagged r.plain_members).mono (by decide)
  | authFailed reason => exact .record (by simp)
  | response r => exact (Plain.tagged r.plain_members).mono (by decide)
  | pong => exact .record (by simp)
  | notification n => exact (Plain.tagged (n.plain_members list)).mono (by decide)
  | sessionExpired => exact .record (by simp)

theorem ServerFrame.ofJson?_toJsonIn {list : Listing} (lists : ∀ d, (list d).Perm d.entries)
    (f : ServerFrame) : ofJson? (f.toJsonIn list) = some f := by
  have keepable := (f.plain_toJsonIn list).keepable (Nat.le_refl _)
  cases f with
  | connected r =>
    have tagged : Tagged.ofJson? "type" ((connected r).toJsonIn list) =
        some ⟨text "connected", record r.members⟩ :=
      Tagged.ofJson?_record (by simp [ConnectResponse.members])
    rw [ofJson?, guard_bind keepable, tagged]
    simp [kinds]
  | authFailed reason =>
    rw [ofJson?, guard_bind keepable]
    simp [toJsonIn, kinds]
  | response r =>
    have tagged : Tagged.ofJson? "type" ((response r).toJsonIn list) =
        some ⟨text "response", record r.members⟩ :=
      Tagged.ofJson?_record (by simp [ResponseFrame.members])
    rw [ofJson?, guard_bind keepable, tagged]
    simp [kinds]
  | pong => rfl
  | notification n =>
    have tagged : Tagged.ofJson? "type" ((notification n).toJsonIn list) =
        some ⟨text "notification", record (n.members list)⟩ :=
      Tagged.ofJson?_record (by cases n <;> simp [Notification.members])
    rw [ofJson?, guard_bind keepable, tagged]
    simp [kinds, Notification.ofKept?_record lists]
  | sessionExpired => rfl

/-! ### Bytes -/

theorem bytes?_of_plain {n : Nat} {j : Json} (plain : Plain n j) : j.bytes? = some (encode j) := by
  obtain ⟨bytes, written, -⟩ := read?_write? plain.writable
  simp [encode, bytes?, written]

theorem read?_encode_of_plain {n : Nat} {j : Json} (plain : Plain n j) :
    read? (encode j).data.toList = some j := by
  obtain ⟨bytes, written, back⟩ := read?_write? plain.writable
  simp [encode, bytes?, written, back]

/-- The bytes that spell a plain value are decoded as what the reader takes that value for. -/
theorem decode_encode_of_plain {α : Type} {read : Json → Option α} {n : Nat} {j : Json} {a : α}
    (plain : Plain n j) (reads : read j = some a) : decode read (encode j) = .ok a := by
  rw [decode, read?_encode_of_plain plain, Option.bind_eq_bind, Option.bind_some, reads]

/-- Every frame has an encoding and is decoded from it as it was, in whichever order the entries
of its metadata are listed. So an error that a response carries keeps its code, its parameters and
its message. -/
theorem decode_encode_frame (list : Listing) (lists : ∀ d, (list d).Perm d.entries) :
    (∀ f : ClientFrame, f.toJson.bytes? = some f.encode ∧ ClientFrame.decode f.encode = .ok f) ∧
    (∀ f : ServerFrame, (f.toJsonIn list).bytes? = some (f.encodeIn list) ∧
      ServerFrame.decode (f.encodeIn list) = .ok f) ∧
    ∀ xid payload (e : ServiceError), ∃ e' : ServiceError,
      ServerFrame.decode ((ServerFrame.response ⟨xid, some e, payload⟩).encodeIn list) =
        .ok (.response ⟨xid, some e', payload⟩) ∧
      e'.code = e.code ∧ e'.params = e.params ∧ e'.message = e.message := by
  have client (f : ClientFrame) :
      f.toJson.bytes? = some f.encode ∧ ClientFrame.decode f.encode = .ok f :=
    ⟨bytes?_of_plain f.plain_toJson, decode_encode_of_plain f.plain_toJson f.ofJson?_toJson⟩
  have server (f : ServerFrame) : (f.toJsonIn list).bytes? = some (f.encodeIn list) ∧
      ServerFrame.decode (f.encodeIn list) = .ok f :=
    ⟨bytes?_of_plain (f.plain_toJsonIn list),
      decode_encode_of_plain (f.plain_toJsonIn list) (f.ofJson?_toJsonIn lists)⟩
  exact ⟨client, server, fun _ _ e => ⟨e, (server _).2, rfl, rfl, rfl⟩⟩

/-- Metadata in falling key order, with a quote, a backslash and control characters, and an error
with a code of no name. -/
theorem decode_encode_frame_reversed :
    let list : Listing := fun d => d.entries.reverse
    let i := ServiceInstance.new "billing" "10.0.0.7" "http://10.0.0.7/\"a\\b"
      |>.withMetadata "größe" "\u0001\n" |>.withMetadata "zone" ""
    let f := ServerFrame.notification (.registered i)
    let e : ServiceError := ⟨.ofNumber 9999, ["\t\u007f", "✓"]⟩
    let r := ServerFrame.response ⟨7, some e, .empty⟩
    list i.metadata = [("zone", ""), ("größe", "\u0001\n")] ∧
      ServerFrame.decode (f.encodeIn list) = .ok f ∧
      ServerFrame.decode (r.encodeIn list) = .ok r ∧
      ClientFrame.decode ClientFrame.ping.encode = .ok .ping := by
  have all := decode_encode_frame (fun d => d.entries.reverse) fun d => d.entries.reverse_perm
  exact ⟨by decide +kernel, (all.2.1 _).2, (all.2.1 _).2, (all.1 _).2⟩

end ServiceDirectory
