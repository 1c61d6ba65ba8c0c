import ServiceDirectory.Proofs.Codec.RoundTrip

/-! The frames of the two directions are told apart by their names. A reader of frames accepts a
value, whichever form it has, only if its tag is a text that the reader knows, and no name is known
to both readers. So no bytes are a frame of both directions. -/
namespace ServiceDirectory

open Json

/-! ### Names -/

def Json.typeName? (j : Json) : Option String := do
  match (← Tagged.ofJson? "type" j).tag with
  | .string s => s.text?
  | _ => none

theorem Json.typeName?_record {name : String} {members : List (String × Json)}
    (h : ∀ m ∈ members, m.1 ≠ "type") :
    (record (("type", text name) :: members)).typeName? = some name := by
  rw [typeName?, Tagged.ofJson?_record h, Option.bind_eq_bind, Option.bind_some]
  exact Literal.text?_ofString name

theorem Json.typeName?_of_choice? {α β : Type} {names : List (String × α)} {j : Json} {f : β}
    {rest : Tagged → α → Option β}
    (read : (Tagged.ofJson? "type" j).bind (fun t => (t.choice? false names).bind (rest t)) =
      some f) :
    ∃ name ∈ names.map Prod.fst, j.typeName? = some name := by
  obtain ⟨t, tagged, read⟩ := Option.bind_eq_some_iff.mp read
  obtain ⟨a, chosen, -⟩ := Option.bind_eq_some_iff.mp read
  rw [typeName?, tagged, Option.bind_eq_bind, Option.bind_some]
  unfold Tagged.choice? at chosen
  split at chosen
  · rename_i s tag
    obtain ⟨name, spelt, found⟩ := Option.bind_eq_some_iff.mp chosen
    obtain ⟨before, after, split, -⟩ := List.lookup_eq_some_iff.mp found
    have listed : (name, a) ∈ names := split ▸ List.mem_append_right before List.mem_cons_self
    refine ⟨name, List.mem_map_of_mem listed, ?_⟩
    rw [tag]
    exact spelt
  · cases chosen
  · cases chosen

theorem Json.refused_of_typeName? {β : Type} {read : Json → Option β} {names : List String}
    {j : Json} {name : String}
    (reads : ∀ f, read j = some f → ∃ name ∈ names, j.typeName? = some name)
    (named : j.typeName? = some name) (unknown : name ∉ names) : read j = none := by
  refine Option.eq_none_iff_forall_not_mem.mpr fun f taken => ?_
  obtain ⟨other, known, again⟩ := reads f taken
  obtain rfl : other = name := Option.some.inj (again.symm.trans named)
  exact unknown known

theorem ClientFrame.typeName?_of_ofJson? {j : Json} (f : ClientFrame) (h : ofJson? j = some f) :
    ∃ name ∈ kinds.map Prod.fst, j.typeName? = some name := by
  obtain ⟨-, -, read⟩ := Option.bind_eq_some_iff.mp h
  exact typeName?_of_choice? read

namespace ServerFrame

theorem typeName?_of_ofJson? {j : Json} (f : ServerFrame) (h : ofJson? j = some f) :
    ∃ name ∈ kinds.map Prod.fst, j.typeName? = some name := by
  obtain ⟨-, -, read⟩ := Option.bind_eq_some_iff.mp h
  exact typeName?_of_choice? read

theorem typeName?_toJsonIn (list : Listing) (f : ServerFrame) :
    ∃ name ∈ kinds.map Prod.fst, (f.toJsonIn list).typeName? = some name := by
  cases f with
  | connected r =>
    exact ⟨"connected", by decide, typeName?_record (by simp [ConnectResponse.members])⟩
  | authFailed reason => exact ⟨"auth_failed", by decide, typeName?_record (by simp)⟩
  | response r => exact ⟨"response", by decide, typeName?_record (by simp [ResponseFrame.members])⟩
  | pong => exact ⟨"pong", by decide, typeName?_record (by simp)⟩
  | notification n =>
    exact ⟨"notification", by decide,
      typeName?_record (by cases n <;> simp [Notification.members])⟩
  | sessionExpired => exact ⟨"session_expired", by decide, typeName?_record (by simp)⟩

end ServerFrame

theorem not_mem_kinds :
    ∀ name ∈ ClientFrame.kinds.map Prod.fst, name ∉ ServerFrame.kinds.map Prod.fst := by
  decide

theorem ClientFrame.ofJson?_eq_none {j : Json} {name : String}
    (known : name ∈ ServerFrame.kinds.map Prod.fst) (named : j.typeName? = some name) :
    ofJson? j = none :=
  refused_of_typeName? typeName?_of_ofJson? named fun here => not_mem_kinds name here known

theorem ServerFrame.ofJson?_eq_none {j : Json} {name : String}
    (known : name ∈ ClientFrame.kinds.map Prod.fst) (named : j.typeName? = some name) :
    ofJson? j = none :=
  refused_of_typeName? typeName?_of_ofJson? named (not_mem_kinds name known)

/-! ### Bytes -/

theorem exists_decode_eq_error {α : Type} {read : Json → Option α} {b : ByteArray}
    (h : Json.read? b.data.toList >>= read = none) :
    ∃ detail, decode read b = .error (.malformed detail) :=
  ⟨_, by rw [decode, h]⟩

theorem exists_decode_encode_eq_error {α : Type} {read : Json → Option α} {n : Nat} {j : Json}
    (plain : Plain n j) (refused : read j = none) :
    ∃ detail, decode read (encode j) = .error (.malformed detail) := by
  refine exists_decode_eq_error ?_
  rw [read?_encode_of_plain plain]
  exact refused

/-- One of the two decoders refuses, whatever the bytes are. The encoding of a frame is refused by
the decoder of the other direction, in whichever order the entries of its metadata are listed. -/
theorem decode_frame_disjoint :
    (∀ b : ByteArray, (∃ detail, ClientFrame.decode b = .error (.malformed detail)) ∨
      ∃ detail, ServerFrame.decode b = .error (.malformed detail)) ∧
    (∀ f : ClientFrame, ∃ detail, ServerFrame.decode f.encode = .error (.malformed detail)) ∧
    ∀ (list : Listing) (f : ServerFrame),
      ∃ detail, ClientFrame.decode (f.encodeIn list) = .error (.malformed detail) := by
  refine ⟨fun b => ?_, fun f => ?_, fun list f => ?_⟩
  · cases spelt : Json.read? b.data.toList with
    | none => exact .inl (exists_decode_eq_error (by rw [spelt]; rfl))
    | some j =>
      cases read : ServerFrame.ofJson? j with
      | none => exact .inr (exists_decode_eq_error (by rw [spelt]; exact read))
      | some f =>
        obtain ⟨name, known, named⟩ := ServerFrame.typeName?_of_ofJson? f read
        have refused := ClientFrame.ofJson?_eq_none known named
        exact .inl (exists_decode_eq_error (by rw [spelt]; exact refused))
  · obtain ⟨name, known, named⟩ := ClientFrame.typeName?_of_ofJson? f f.ofJson?_toJson
    exact exists_decode_encode_eq_error f.plain_toJson (ServerFrame.ofJson?_eq_none known named)
  · obtain ⟨name, known, named⟩ := f.typeName?_toJsonIn list
    exact exists_decode_encode_eq_error (f.plain_toJsonIn list)
      (ClientFrame.ofJson?_eq_none known named)

end ServiceDirectory
