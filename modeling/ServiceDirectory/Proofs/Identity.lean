import ServiceDirectory.Identity
import ServiceDirectory.Proofs.Decimal

/-! Which names of providers are read as the older form, and what address they lead to. A name is of
the older form just if it is some address, a hyphen and the digits of a port; the address has no
other mark by which it could be told from a name that ends in this way by itself. -/
namespace ServiceDirectory

namespace ProviderIdentity

/-- A name of the older form: an address, a hyphen and the digits of a port, which may begin with
zeros. -/
structure Composed (raw address : String) (ds : List Nat) : Prop where
  addressed : address ≠ ""
  some_digit : ds ≠ []
  digits : ∀ d ∈ ds, d < 10
  in_range : Decimal.value ds ≤ Endpoint.maxPort
  joined : raw = address ++ "-" ++ String.ofList (ds.map Decimal.digitChar)

namespace Composed

variable {raw address : String} {ds : List Nat}

theorem toList_eq (h : Composed raw address ds) :
    raw.toList = address.toList ++ '-' :: ds.map Decimal.digitChar := by
  rw [h.joined]
  simp

theorem splitLast_eq (h : Composed raw address ds) :
    Endpoint.splitLast '-' raw.toList = some (address.toList, ds.map Decimal.digitChar) :=
  Endpoint.splitLast_eq_some_iff.mpr ⟨h.toList_eq, Decimal.notMem_map_digitChar rfl h.digits⟩

theorem addressSize?_eq (h : Composed raw address ds) :
    addressSize? raw = some address.utf8ByteSize := by
  have port : Decimal.atMost? Endpoint.maxPort (ds.map Decimal.digitChar) =
      some (Decimal.value ds) :=
    Decimal.atMost?_eq_some_iff.mpr
      ⟨Decimal.read?_eq_some_iff.mpr ⟨ds, h.some_digit, h.digits, rfl, rfl⟩, h.in_range⟩
  have guarded : guard (!address.toList.isEmpty) = some () :=
    (Option.guard_eq_some' ()).mpr (by simpa using h.addressed)
  rw [addressSize?, h.splitLast_eq]
  simp only [Option.bind_eq_bind, Option.bind_some, guarded, port, String.ofList_toList]
  rfl

theorem ofName_eq (h : Composed raw address ds) :
    ofName raw = .composite raw address.utf8ByteSize := by
  rw [ofName, h.addressSize?_eq]

theorem address_eq (h : Composed raw address ds) : (ofName raw).address = address := by
  have left := Text.slice?_left address ("-" ++ String.ofList (ds.map Decimal.digitChar))
  rw [← String.append_assoc, ← h.joined] at left
  rw [h.ofName_eq, ProviderIdentity.address, left]
  rfl

theorem size_eq : (address ++ "-").utf8ByteSize = address.utf8ByteSize + 1 :=
  String.utf8ByteSize_append

theorem port_eq (h : Composed raw address ds) :
    (ofName raw).port = some (UInt16.ofNat (Decimal.value ds)) := by
  have right := Text.slice?_right (address ++ "-") (String.ofList (ds.map Decimal.digitChar))
  rw [← h.joined, size_eq] at right
  have read : Decimal.signedAtMost? Endpoint.maxPort (ds.map Decimal.digitChar) =
      some (Decimal.value ds) :=
    Decimal.signedAtMost?_eq_some_iff.mpr
      ⟨ds, h.some_digit, h.digits, .inl rfl, rfl, h.in_range⟩
  rw [h.ofName_eq, ProviderIdentity.port, right]
  simp only [Option.bind_eq_bind, Option.bind_some, String.toList_ofList, read]
  rfl

theorem isValid_size (h : Composed raw address ds) :
    String.Pos.Raw.IsValid raw ⟨address.utf8ByteSize⟩ ∧
      String.Pos.Raw.IsValid raw ⟨address.utf8ByteSize + 1⟩ := by
  constructor
  · refine String.Pos.Raw.isValid_iff_exists_append.mpr
      ⟨address, "-" ++ String.ofList (ds.map Decimal.digitChar), ?_, rfl⟩
    rw [← String.append_assoc]
    exact h.joined
  · exact String.Pos.Raw.isValid_iff_exists_append.mpr
      ⟨address ++ "-", String.ofList (ds.map Decimal.digitChar), h.joined,
        congrArg String.Pos.Raw.mk size_eq.symm⟩

theorem address_ne (h : Composed raw address ds) : raw ≠ address := by
  intro same
  have length := congrArg List.length h.toList_eq
  rw [same, List.length_append, List.length_cons] at length
  omega

end Composed

theorem composed_of_addressSize? {raw : String} {n : Nat} (h : addressSize? raw = some n) :
    ∃ address ds, Composed raw address ds := by
  simp only [addressSize?, Option.bind_eq_bind, Option.bind_eq_some_iff, Prod.exists,
    Option.guard_eq_some', Endpoint.splitLast_eq_some_iff, Decimal.atMost?_eq_some_iff,
    Decimal.read?_eq_some_iff] at h
  obtain ⟨address, _, ⟨split, -⟩, _, guarded, _,
    ⟨⟨ds, some_digit, digits, rfl, rfl⟩, in_range⟩, -⟩ := h
  refine ⟨String.ofList address, ds, ?_, some_digit, digits, in_range, ?_⟩
  · simpa using guarded
  · rw [← String.toList_inj, split]
    simp

theorem ofName_of_not_composed {raw : String} (h : ¬∃ address ds, Composed raw address ds) :
    ofName raw = .plain raw := by
  cases size : addressSize? raw with
  | none => rw [ofName, size]
  | some n => exact absurd (composed_of_addressSize? size) h

theorem composed_port {address : String} (nonempty : address ≠ "") (port : UInt16) :
    Composed (address ++ "-" ++ Decimal.string port.toNat) address
      (Decimal.digits port.toNat) where
  addressed := nonempty
  some_digit := Decimal.digits_ne_nil _
  digits := Decimal.digits_lt_ten _
  in_range := by
    rw [Decimal.value_digits]
    exact Nat.le_of_lt_succ port.toNat_lt
  joined := rfl

/-- The older form of a name always leads to its address. The address alone leads to itself, and so
to the same as the older form, just if it does not end in a hyphen and the digits of a port; one
that does is itself taken for a name of the older form. -/
theorem address_of_both_forms {address : String} (nonempty : address ≠ "") (port : UInt16) :
    let older := address ++ "-" ++ Decimal.string port.toNat
    (ofName older).address = address ∧
    ((ofName address).address = (ofName older).address ↔ ¬∃ b ds, Composed address b ds) ∧
    ∀ b ds, Composed address b ds → (ofName address).address = b := by
  intro older
  have leads : (ofName older).address = address := (composed_port nonempty port).address_eq
  refine ⟨leads, ?_, fun b ds composed => composed.address_eq⟩
  rw [leads]
  constructor
  · rintro same ⟨b, ds, composed⟩
    exact composed.address_ne (same.symm.trans composed.address_eq)
  · intro plain
    rw [ofName_of_not_composed plain]
    rfl

/-- A host name with a number in it leads elsewhere than its older form; one with letters behind
its hyphen does not. -/
theorem address_of_both_forms_hyphenated :
    (ofName "my-host-2013-443").address = "my-host-2013" ∧
    (ofName "my-host-2013").address = "my-host" ∧
    (ofName "my-host").address = (ofName "my-host-443").address := by
  have composed : Composed "my-host-2013" "my-host" [2, 0, 1, 3] :=
    ⟨by decide, by decide, by decide, by decide, by decide +kernel⟩
  have written : "my-host-2013" ++ "-" ++ Decimal.string 443 = "my-host-2013-443" := by
    decide +kernel
  have written' : "my-host" ++ "-" ++ Decimal.string 443 = "my-host-443" := by decide +kernel
  have numbered : "my-host-2013" ≠ "" := by decide
  have lettered : "my-host" ≠ "" := by decide
  obtain ⟨leads, -, elsewhere⟩ := address_of_both_forms numbered 443
  obtain ⟨-, same, -⟩ := address_of_both_forms lettered 443
  refine ⟨written ▸ leads, elsewhere _ _ composed, written' ▸ same.mpr ?_⟩
  rintro ⟨b, ds, other⟩
  have none : addressSize? "my-host" = none := by decide +kernel
  rw [other.addressSize?_eq] at none
  cases none

/-- The two forms of a name do not always lead to the same address. -/
theorem not_forall_address_of_both_forms :
    ¬∀ (address : String) (port : UInt16), address ≠ "" →
      (ofName address).address =
        (ofName (address ++ "-" ++ Decimal.string port.toNat)).address := by
  intro all
  have same := all "my-host-2013" 443 (by decide)
  rw [(composed_port (by decide) 443).address_eq] at same
  exact absurd same (by decide +kernel)

/-- Just the names of the older form are read as such. The hyphen in front of the port is then the
last one of the name, the address is all before it and the port is the number behind it; any other
name is an address without a port. Either way the name is the id, by which the identity is found
again. Where the address is kept by its size, it ends between two characters of the name, and so
does the hyphen. -/
theorem ofName_exact (raw : String) :
    ((ofName raw).isLegacy = true ↔ ∃ address ds, Composed raw address ds) ∧
    (∀ address ds, Composed raw address ds →
      Endpoint.splitLast '-' raw.toList = some (address.toList, ds.map Decimal.digitChar) ∧
      (ofName raw).address = address ∧
      (ofName raw).port.map UInt16.toNat = some (Decimal.value ds)) ∧
    ((¬∃ address ds, Composed raw address ds) →
      (ofName raw).address = raw ∧ (ofName raw).port = none) ∧
    (ofName raw).id = raw ∧ ofName (ofName raw).id = ofName raw ∧
    ∀ id size, ofName raw = .composite id size →
      String.Pos.Raw.IsValid id ⟨size⟩ ∧ String.Pos.Raw.IsValid id ⟨size + 1⟩ := by
  refine ⟨⟨fun legacy => ?_, ?_⟩, fun address ds composed => ?_, fun plain => ?_, id_ofName raw,
    ofName_id_ofName raw, fun id size kept => ?_⟩
  · by_contra plain
    rw [ofName_of_not_composed plain] at legacy
    cases legacy
  · rintro ⟨address, ds, composed⟩
    rw [composed.ofName_eq]
    rfl
  · have port : (UInt16.ofNat (Decimal.value ds)).toNat = Decimal.value ds :=
      UInt16.toNat_ofNat_of_lt (Nat.lt_succ_of_le composed.in_range)
    refine ⟨composed.splitLast_eq, composed.address_eq, ?_⟩
    rw [composed.port_eq, Option.map_some, port]
  · rw [ofName_of_not_composed plain]
    exact ⟨rfl, rfl⟩
  · by_cases composed : ∃ address ds, Composed raw address ds
    · obtain ⟨address, ds, composed⟩ := composed
      rw [composed.ofName_eq] at kept
      cases kept
      exact composed.isValid_size
    · rw [ofName_of_not_composed composed] at kept
      cases kept

/-- A name in letters of two bytes, with two hyphens and a port that begins with zeros; and one
whose number is no port. -/
theorem ofName_exact_of_letters :
    (ofName "ß-é-0080").address = "ß-é" ∧
    (ofName "ß-é-0080").port.map UInt16.toNat = some 80 ∧
    ofName "ß-é-0080" = .composite "ß-é-0080" 5 ∧
    String.Pos.Raw.IsValid "ß-é-0080" ⟨5⟩ ∧ String.Pos.Raw.IsValid "ß-é-0080" ⟨6⟩ ∧
    (ofName "ß-65536").address = "ß-65536" ∧ (ofName "ß-65536").port = none := by
  have composed : Composed "ß-é-0080" "ß-é" [0, 0, 8, 0] :=
    ⟨by decide, by decide, by decide, by decide, by decide +kernel⟩
  have kept : ofName "ß-é-0080" = .composite "ß-é-0080" 5 := by decide +kernel
  have plain : ¬∃ address ds, Composed "ß-65536" address ds := by
    rintro ⟨address, ds, other⟩
    have none : addressSize? "ß-65536" = none := by decide +kernel
    rw [other.addressSize?_eq] at none
    cases none
  obtain ⟨-, older, -, -, -, valid⟩ := ofName_exact "ß-é-0080"
  obtain ⟨-, -, address, -⟩ := ofName_exact "ß-65536"
  obtain ⟨-, leads, port⟩ := older _ _ composed
  exact ⟨leads, port, kept, (valid _ _ kept).1, (valid _ _ kept).2, address plain⟩

end ProviderIdentity
end ServiceDirectory
