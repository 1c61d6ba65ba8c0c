import Mathlib.Data.List.Basic
import Mathlib.Data.Option.Basic
import ServiceDirectory.Json.Printer
import ServiceDirectory.Json.Reader

/-! The reader reads back what the printer writes: every value whose literals have no raw control
character and whose numbers are whole and fit in 64 bits. Behind a number or a word the reader has
not yet closed the token, so the lemmas speak of readers that have a value as good as behind
them. -/
namespace ServiceDirectory.Json

def Number.isWhole : Number → Bool
  | .natural n => n < UInt64.size
  | .negative n => 0 < n && n ≤ 9223372036854775808
  | _ => false

def writable (j : Json) : Bool := j.every (!·.control) Number.isWhole

namespace Reader

def feedAll (r : Reader) (bytes : List UInt8) : Option Reader := bytes.foldlM feed r

@[simp] theorem feedAll_nil (r : Reader) : r.feedAll [] = some r := rfl

theorem feedAll_cons (r : Reader) (b : UInt8) (bytes : List UInt8) :
    r.feedAll (b :: bytes) = (r.feed b).bind fun s => s.feedAll bytes :=
  List.foldlM_cons

theorem feedAll_append (r : Reader) (front back : List UInt8) :
    r.feedAll (front ++ back) = (r.feedAll front).bind fun s => s.feedAll back :=
  List.foldlM_append

theorem feedAll_step {r s : Reader} {b : UInt8} (h : r.feed b = some s) (bytes : List UInt8) :
    r.feedAll (b :: bytes) = s.feedAll bytes := by
  rw [feedAll_cons, h]
  rfl

theorem feedAll_trans {r s : Reader} {front : List UInt8} (h : r.feedAll front = some s)
    (back : List UInt8) : r.feedAll (front ++ back) = s.feedAll back := by
  rw [feedAll_append, h]
  rfl

/-- The reader stands where a builder has everything before; the token under way, if there is
one, ends with the next byte that is no letter and does not occur in numbers. -/
structure Settles (r : Reader) (b : Builder) : Prop where
  closes : r.close = some b
  goesOn : ∀ c, isLetter c = false → isNumeric c = false → r.feed c = start b c

theorem settles_between (b : Builder) : Settles ⟨.between, b⟩ b :=
  ⟨rfl, fun _ _ _ => rfl⟩

theorem settles_word {letters : List UInt8} {b b' : Builder}
    (h : close ⟨.word letters, b⟩ = some b') : Settles ⟨.word letters, b⟩ b' :=
  ⟨h, fun c letter _ => by simp only [feed, letter, Bool.false_eq_true, if_false, h]; rfl⟩

theorem settles_number {row : List UInt8} {b b' : Builder}
    (h : close ⟨.number row, b⟩ = some b') : Settles ⟨.number row, b⟩ b' :=
  ⟨h, fun c _ numeric => by simp only [feed, numeric, Bool.false_eq_true, if_false, h]; rfl⟩

theorem Settles.punctuation {r : Reader} {b b' : Builder} (h : r.Settles b) {c : UInt8} {t : Token}
    (mark : punctuation? c = some t) (taken : b.take t = some b') :
    r.feed c = some ⟨.between, b'⟩ := by
  have kind : isBlank c = false ∧ (c == 0x22) = false ∧ isLetter c = false ∧
      isNumeric c = false := by
    have cases : c = 0x5B ∨ c = 0x5D ∨ c = 0x7B ∨ c = 0x7D ∨ c = 0x3A ∨ c = 0x2C := by
      by_contra other
      simp only [not_or] at other
      simp [punctuation?, other] at mark
    rcases cases with rfl | rfl | rfl | rfl | rfl | rfl <;> decide
  obtain ⟨blank, quote, letter, numeric⟩ := kind
  rw [h.goesOn c letter numeric]
  simp [start, blank, quote, letter, numeric, mark, taken]

end Reader

theorem guard_bind {α : Type} {b : Bool} (h : b = true) (next : Unit → Option α) :
    ((guard b : Option Unit) >>= next) = next () := by
  rw [h]
  rfl

/-! ### Literals -/

def pieceOf (b : UInt8) : Piece :=
  if b = 0x22 ∨ b = 0x5C ∨ b = 0x08 ∨ b = 0x0C ∨ b = 0x0A ∨ b = 0x0D ∨ b = 0x09 then .escaped b
  else if b < 0x20 then .unit b.toNat
  else .raw b

theorem hexDigit?_hexDigit {n : Nat} (h : n < 16) : Reader.hexDigit? (hexDigit n) = some n := by
  have all : ∀ n < 16, Reader.hexDigit? (hexDigit n) = some n := by decide
  exact all n h

theorem feedAll_writeByte (b : UInt8) (pieces : List Piece) (builder : Builder) :
    Reader.feedAll ⟨.quoted pieces, builder⟩ (writeByte b) =
      some ⟨.quoted (pieceOf b :: pieces), builder⟩ := by
  by_cases named : b = 0x22 ∨ b = 0x5C ∨ b = 0x08 ∨ b = 0x0C ∨ b = 0x0A ∨ b = 0x0D ∨ b = 0x09
  · rw [pieceOf, if_pos named]
    rcases named with rfl | rfl | rfl | rfl | rfl | rfl | rfl <;> rfl
  · rw [pieceOf, if_neg named]
    simp only [not_or] at named
    by_cases control : b < 0x20
    -- Two hexadecimal digits make up the byte again.
    · have small : b.toNat < 32 := control
      have high := hexDigit?_hexDigit (n := b.toNat / 16) (by omega)
      have low := hexDigit?_hexDigit (n := b.toNat % 16) (by omega)
      have number : 16 * (b.toNat / 16) + b.toNat % 16 = b.toNat := by omega
      have zero : Reader.hexDigit? 0x30 = some 0 := by decide
      simp [writeByte, named, control, Reader.feedAll_cons, Reader.feed, high, low, number, zero]
    · simp [writeByte, named, control, Reader.feedAll_cons, Reader.feed]

theorem feedAll_writeBytes (bytes : List UInt8) (pieces : List Piece) (builder : Builder) :
    Reader.feedAll ⟨.quoted pieces, builder⟩ (bytes.flatMap writeByte) =
      some ⟨.quoted ((bytes.map pieceOf).reverse ++ pieces), builder⟩ := by
  induction bytes generalizing pieces with
  | nil => rfl
  | cons b bytes ih =>
    rw [List.flatMap_cons, Reader.feedAll_trans (feedAll_writeByte b pieces builder), ih,
      List.map_cons, List.reverse_cons, List.append_assoc]
    rfl

theorem pieceBytes_unit {n : Nat} (h : n < 0x20) (rest : List Piece) :
    pieceBytes (.unit n :: rest) = UInt8.ofNat n :: pieceBytes rest := by
  have code : codeBytes n = [UInt8.ofNat n] := by
    rw [codeBytes, if_pos (by omega)]
  have leading : isLeading n = false := by
    simp only [isLeading, Bool.and_eq_false_iff, decide_eq_false_iff_not]
    omega
  cases rest with
  | nil => simp [pieceBytes, code]
  | cons p rest => cases p <;> simp [pieceBytes, code, leading]

theorem pieceBytes_pieceOf (bytes : List UInt8) : pieceBytes (bytes.map pieceOf) = bytes := by
  induction bytes with
  | nil => rfl
  | cons b bytes ih =>
    rw [List.map_cons, pieceOf]
    split
    · rw [pieceBytes, ih]
    · split
      · rename_i control
        have small : b.toNat < 0x20 := control
        rw [pieceBytes_unit small, ih, UInt8.ofNat_toNat]
      · rw [pieceBytes, ih]

theorem isControl_pieceOf (b : UInt8) : (pieceOf b).isControl = false := by
  unfold pieceOf
  split
  · rfl
  · split
    · rfl
    · rename_i other
      simpa [Piece.isControl] using other

theorem ofPieces_pieceOf {s : Literal} (h : s.control = false) :
    Literal.ofPieces (s.bytes.map pieceOf) = s := by
  obtain ⟨bytes, control⟩ := s
  obtain rfl : control = false := h
  have silent : (bytes.map pieceOf).any (·.isControl) = false := by
    simp [List.any_eq_false, isControl_pieceOf]
  rw [Literal.ofPieces, pieceBytes_pieceOf, silent]

theorem feedAll_writeLiteral {s : Literal} (h : s.control = false) {b b' : Builder}
    (taken : b.take (.string s) = some b') :
    Reader.feedAll ⟨.between, b⟩ (writeLiteral s) = some ⟨.between, b'⟩ := by
  have opened : Reader.feed ⟨.between, b⟩ 0x22 = some ⟨.quoted [], b⟩ := rfl
  rw [writeLiteral, List.cons_append, Reader.feedAll_step opened,
    Reader.feedAll_trans (feedAll_writeBytes s.bytes [] b), List.append_nil]
  simp [Reader.feedAll_cons, Reader.feed, ofPieces_pieceOf h, taken]

/-! ### Numbers -/

theorem forall_digitBytes {P : UInt8 → Prop} (h : ∀ d < 10, P (UInt8.ofNat (48 + d))) (n : Nat) :
    ∀ b ∈ Number.digitBytes n, P b := by
  intro b hb
  obtain ⟨d, hd, rfl⟩ := List.mem_map.mp hb
  exact h d (Decimal.digits_lt_ten n d hd)

theorem isNumeric_digitBytes (n : Nat) : ∀ b ∈ Number.digitBytes n, Reader.isNumeric b = true :=
  forall_digitBytes (by decide) n

theorem digitBytes_ne_nil (n : Nat) : Number.digitBytes n ≠ [] := by
  simp [Number.digitBytes, Decimal.digits_ne_nil]

theorem feedAll_number {bytes : List UInt8} (h : ∀ b ∈ bytes, Reader.isNumeric b = true)
    (row : List UInt8) (b : Builder) :
    Reader.feedAll ⟨.number row, b⟩ bytes = some ⟨.number (bytes.reverse ++ row), b⟩ := by
  induction bytes generalizing row with
  | nil => rfl
  | cons c bytes ih =>
    have next : Reader.feed ⟨.number row, b⟩ c = some ⟨.number (c :: row), b⟩ := by
      simp [Reader.feed, h c List.mem_cons_self]
    rw [Reader.feedAll_step next, ih fun b hb => h b (List.mem_cons_of_mem c hb),
      List.reverse_cons, List.append_assoc]
    rfl

theorem head?_digits {n : Nat} (h : (Decimal.digits n).length ≠ 1) :
    (Decimal.digits n).head? ≠ some 0 := by
  fun_induction Decimal.digits n with
  | case1 n small => exact absurd rfl h
  | case2 n large ih =>
    rw [List.head?_append_of_ne_nil _ (Decimal.digits_ne_nil _)]
    by_cases single : (Decimal.digits (n / 10)).length = 1
    · rw [Decimal.digits] at single ⊢
      split at single
      · rename_i small
        rw [if_pos small]
        simp
        omega
      · have some := List.length_pos_iff.mpr (Decimal.digits_ne_nil (n / 10 / 10))
        rw [List.length_append, List.length_singleton] at single
        omega
    · exact ih single

theorem numeral?_digitBytes (n : Nat) :
    Number.numeral? (Number.digitBytes n) = some ⟨false, Decimal.digits n, none, none⟩ ∧
    Number.numeral? (0x2D :: Number.digitBytes n) = some ⟨true, Decimal.digits n, none, none⟩ := by
  have proper : (!(Decimal.digits n).isEmpty &&
      ((Decimal.digits n).length == 1 || (Decimal.digits n).head? != some 0)) = true := by
    by_cases single : (Decimal.digits n).length = 1
    · simp [single, Decimal.digits_ne_nil n]
    · simp [head?_digits single, Decimal.digits_ne_nil n]
  have taken := Number.takeDigits_digitBytes n
  have sign : ∀ rest, Number.digitBytes n ≠ 0x2D :: rest := fun rest same =>
    forall_digitBytes (P := (· ≠ 0x2D)) (by decide) n 0x2D (same ▸ List.mem_cons_self) rfl
  constructor
  · unfold Number.numeral?
    generalize Number.digitBytes n = bytes at taken sign
    split
    rename_i unsigned
    split at unsigned
    · rename_i rest
      exact absurd rfl (sign rest)
    · cases unsigned
      rw [taken]
      exact (guard_bind proper _).trans rfl
  · rw [Number.numeral?]
    dsimp only
    rw [taken]
    exact (guard_bind proper _).trans rfl

theorem ofNumeral_natural {n : Nat} (h : n < UInt64.size) :
    Number.ofNumeral ⟨false, Decimal.digits n, none, none⟩ = .natural n := by
  simp [Number.ofNumeral, Decimal.value_digits, h]

theorem ofNumeral_negative {n : Nat} (pos : 0 < n) (h : n ≤ 9223372036854775808) :
    Number.ofNumeral ⟨true, Decimal.digits n, none, none⟩ = .negative n := by
  simp [Number.ofNumeral, Decimal.value_digits, h, pos]

/-- A whole number is written as numeric bytes that are read as this number. The first of them is
no letter, so a number begins with it. -/
theorem read?_writeNumber? {n : Number} (h : n.isWhole = true) :
    ∃ b bytes, writeNumber? n = some (b :: bytes) ∧ Number.read? (b :: bytes) = some n ∧
      Reader.isLetter b = false ∧ ∀ c ∈ b :: bytes, Reader.isNumeric c = true := by
  cases n with
  | natural n =>
    have small : n < UInt64.size := by simpa [Number.isWhole] using h
    have numeric := isNumeric_digitBytes n
    have letters := forall_digitBytes (P := fun b => Reader.isLetter b = false) (by decide) n
    have numeral := (numeral?_digitBytes n).1
    cases row : Number.digitBytes n with
    | nil => exact absurd row (digitBytes_ne_nil n)
    | cons b bytes =>
      rw [row] at numeric letters numeral
      refine ⟨b, bytes, congrArg some row, ?_, letters b List.mem_cons_self, numeric⟩
      rw [Number.read?, numeral, Option.map_some, ofNumeral_natural small]
  | negative n =>
    obtain ⟨pos, small⟩ : 0 < n ∧ n ≤ 9223372036854775808 := by simpa [Number.isWhole] using h
    refine ⟨0x2D, Number.digitBytes n, rfl, ?_, by decide, fun c hc => ?_⟩
    · rw [Number.read?, (numeral?_digitBytes n).2, Option.map_some, ofNumeral_negative pos small]
    · rcases List.mem_cons.mp hc with rfl | hc
      · decide
      · exact isNumeric_digitBytes n c hc
  | real x => exact absurd h (by simp [Number.isWhole])
  | outOfRange => exact absurd h (by simp [Number.isWhole])

theorem feed_numeric {c : UInt8} (numeric : Reader.isNumeric c = true)
    (letter : Reader.isLetter c = false) (b : Builder) :
    Reader.feed ⟨.between, b⟩ c = some ⟨.number [c], b⟩ := by
  have apart : ∀ n < 256, Reader.isNumeric (UInt8.ofNat n) = true →
      Reader.isBlank (UInt8.ofNat n) = false ∧ (UInt8.ofNat n == 0x22) = false := by
    decide +kernel
  have kind := apart c.toNat c.toNat_lt
  rw [UInt8.ofNat_toNat] at kind
  obtain ⟨blank, quote⟩ := kind numeric
  simp [Reader.feed, Reader.start, blank, quote, letter, numeric]

/-! ### Values -/

def Builder.Opens (b : Builder) : Prop := b.stage = .value ∨ b.stage = .firstItem

theorem Builder.Opens.take {b : Builder} (h : b.Opens) {t : Token} (begins : t ≠ .endArray) :
    b.take t = Builder.begin b.holders t := by
  obtain ⟨holders, stage⟩ := b
  rcases h with rfl | rfl
  · rfl
  · simp only [Builder.take]
    split
    · exact absurd rfl begins
    · rfl

def ReadsBack (j : Json) : Prop :=
  ∃ bytes, write? j = some bytes ∧ ∀ b : Builder, b.Opens →
    ∃ r, Reader.feedAll ⟨.between, b⟩ bytes = some r ∧ r.Settles ⟨b.holders, .after j⟩

theorem readsBack_null : ReadsBack .null := by
  refine ⟨nullWord, by rw [write?], fun b opens => ⟨⟨.word nullWord.reverse, b⟩, rfl, ?_⟩⟩
  exact Reader.settles_word (opens.take (t := .scalar .null) (by simp))

theorem readsBack_bool (value : Bool) : ReadsBack (.bool value) := by
  cases value with
  | true =>
    refine ⟨trueWord, by rw [write?], fun b opens => ⟨⟨.word trueWord.reverse, b⟩, rfl, ?_⟩⟩
    exact Reader.settles_word (opens.take (t := .scalar (.bool true)) (by simp))
  | false =>
    refine ⟨falseWord, by rw [write?], fun b opens => ⟨⟨.word falseWord.reverse, b⟩, rfl, ?_⟩⟩
    exact Reader.settles_word (opens.take (t := .scalar (.bool false)) (by simp))

theorem readsBack_number {n : Number} (h : n.isWhole = true) : ReadsBack (.number n) := by
  obtain ⟨b, bytes, written, number, letter, numeric⟩ := read?_writeNumber? h
  refine ⟨b :: bytes, by rw [write?, written], fun builder opens =>
    ⟨⟨.number (bytes.reverse ++ [b]), builder⟩, ?_, Reader.settles_number ?_⟩⟩
  · rw [Reader.feedAll_step (feed_numeric (numeric b List.mem_cons_self) letter builder),
      feedAll_number fun c hc => numeric c (List.mem_cons_of_mem b hc)]
  · have row : (bytes.reverse ++ [b]).reverse = b :: bytes := by simp
    have taken := opens.take (t := .scalar (.number n)) (by simp)
    simp [Reader.close, row, number, taken, Builder.begin]

theorem readsBack_string {s : Literal} (h : s.control = false) : ReadsBack (.string s) := by
  refine ⟨writeLiteral s, by rw [write?], fun b opens => ?_⟩
  have taken := opens.take (t := .string s) (by simp)
  exact ⟨_, feedAll_writeLiteral h taken, Reader.settles_between _⟩

theorem feedAll_writeItems {items : List Json} (h : ∀ j ∈ items, ReadsBack j) :
    ∃ bytes, writeItems? false items = some bytes ∧ ∀ holders done j r,
      Reader.Settles r ⟨.array done :: holders, .after j⟩ →
      r.feedAll bytes =
        some ⟨.between, holders, .after (.array ((j :: done).reverse ++ items))⟩ := by
  induction items with
  | nil =>
    refine ⟨[0x5D], by rw [writeItems?], fun holders done j r settles => ?_⟩
    have ended := settles.punctuation (c := 0x5D) (t := .endArray) rfl rfl
    rw [Reader.feedAll_step ended, List.append_nil]
    rfl
  | cons i items ih =>
    obtain ⟨item, written, reads⟩ := h i List.mem_cons_self
    obtain ⟨rest, writtenOn, readsOn⟩ := ih fun j hj => h j (List.mem_cons_of_mem i hj)
    refine ⟨[0x2C] ++ item ++ rest, by simp [writeItems?, written, writtenOn],
      fun holders done j r settles => ?_⟩
    have comma := settles.punctuation (c := 0x2C) (t := .comma) rfl rfl
    obtain ⟨s, taken, settles⟩ := reads ⟨.array (j :: done) :: holders, .value⟩ (.inl rfl)
    rw [List.append_assoc, List.singleton_append, Reader.feedAll_step comma,
      Reader.feedAll_trans taken, readsOn holders (j :: done) i s settles]
    simp

theorem readsBack_array {items : List Json} (h : ∀ j ∈ items, ReadsBack j) :
    ReadsBack (.array items) := by
  cases items with
  | nil =>
    refine ⟨[0x5B, 0x5D], by simp [write?, writeItems?], fun b opens => ?_⟩
    have begun := (Reader.settles_between b).punctuation (c := 0x5B) (t := .beginArray) rfl
      (opens.take (by simp))
    have ended := (Reader.settles_between ⟨.array [] :: b.holders, .firstItem⟩).punctuation
      (c := 0x5D) (t := .endArray) rfl rfl
    exact ⟨_, by rw [Reader.feedAll_step begun, Reader.feedAll_step ended]; rfl,
      Reader.settles_between _⟩
  | cons i items =>
    obtain ⟨item, written, reads⟩ := h i List.mem_cons_self
    obtain ⟨rest, writtenOn, readsOn⟩ :=
      feedAll_writeItems fun j hj => h j (List.mem_cons_of_mem i hj)
    refine ⟨0x5B :: (item ++ rest), by simp [write?, writeItems?, written, writtenOn],
      fun b opens => ?_⟩
    have begun := (Reader.settles_between b).punctuation (c := 0x5B) (t := .beginArray) rfl
      (opens.take (by simp))
    obtain ⟨s, taken, settles⟩ := reads ⟨.array [] :: b.holders, .firstItem⟩ (.inr rfl)
    refine ⟨_, ?_, Reader.settles_between _⟩
    rw [Reader.feedAll_step begun, Reader.feedAll_trans taken, readsOn b.holders [] i s settles]
    rfl

theorem feedAll_member {k : Literal} {j : Json} {b : Builder} {holders : List Holder}
    (done : List (Literal × Json)) {value : List UInt8} (h : k.control = false)
    (taken : b.take (.string k) = some ⟨holders, .colon done k⟩)
    (reads : ∀ b : Builder, b.Opens →
      ∃ r, Reader.feedAll ⟨.between, b⟩ value = some r ∧ r.Settles ⟨b.holders, .after j⟩) :
    ∃ r, Reader.feedAll ⟨.between, b⟩ (writeLiteral k ++ 0x3A :: value) = some r ∧
      r.Settles ⟨.object done k :: holders, .after j⟩ := by
  have colon := (Reader.settles_between ⟨holders, .colon done k⟩).punctuation (c := 0x3A)
    (t := .colon) rfl rfl
  obtain ⟨r, fed, settles⟩ := reads ⟨.object done k :: holders, .value⟩ (.inl rfl)
  refine ⟨r, ?_, settles⟩
  rw [Reader.feedAll_trans (feedAll_writeLiteral h taken), Reader.feedAll_step colon, fed]

theorem feedAll_writeMembers {members : List (Literal × Json)}
    (h : ∀ m ∈ members, m.1.control = false ∧ ReadsBack m.2) :
    ∃ bytes, writeMembers? false members = some bytes ∧ ∀ holders done k j r,
      Reader.Settles r ⟨.object done k :: holders, .after j⟩ →
      r.feedAll bytes =
        some ⟨.between, holders, .after (.object (((k, j) :: done).reverse ++ members))⟩ := by
  induction members with
  | nil =>
    refine ⟨[0x7D], by rw [writeMembers?], fun holders done k j r settles => ?_⟩
    have ended := settles.punctuation (c := 0x7D) (t := .endObject) rfl rfl
    rw [Reader.feedAll_step ended, List.append_nil]
    rfl
  | cons m members ih =>
    obtain ⟨key, i⟩ := m
    obtain ⟨control, value, written, reads⟩ := h _ List.mem_cons_self
    obtain ⟨rest, writtenOn, readsOn⟩ := ih fun m hm => h m (List.mem_cons_of_mem _ hm)
    refine ⟨[0x2C] ++ writeLiteral key ++ 0x3A :: value ++ rest,
      by simp [writeMembers?, written, writtenOn], fun holders done k j r settles => ?_⟩
    have comma := settles.punctuation (c := 0x2C) (t := .comma) rfl rfl
    obtain ⟨s, taken, settles⟩ := feedAll_member ((k, j) :: done) control
      (b := ⟨holders, .key ((k, j) :: done)⟩) rfl reads
    rw [List.append_assoc, List.append_assoc, ← List.append_assoc (writeLiteral key),
      List.singleton_append, Reader.feedAll_step comma, Reader.feedAll_trans taken,
      readsOn holders ((k, j) :: done) key i s settles]
    simp

theorem readsBack_object {members : List (Literal × Json)}
    (h : ∀ m ∈ members, m.1.control = false ∧ ReadsBack m.2) : ReadsBack (.object members) := by
  cases members with
  | nil =>
    refine ⟨[0x7B, 0x7D], by simp [write?, writeMembers?], fun b opens => ?_⟩
    have begun := (Reader.settles_between b).punctuation (c := 0x7B) (t := .beginObject) rfl
      (opens.take (by simp))
    have ended := (Reader.settles_between ⟨b.holders, .firstKey⟩).punctuation (c := 0x7D)
      (t := .endObject) rfl rfl
    exact ⟨_, by rw [Reader.feedAll_step begun, Reader.feedAll_step ended]; rfl,
      Reader.settles_between _⟩
  | cons m members =>
    obtain ⟨key, i⟩ := m
    obtain ⟨control, value, written, reads⟩ := h _ List.mem_cons_self
    obtain ⟨rest, writtenOn, readsOn⟩ :=
      feedAll_writeMembers fun m hm => h m (List.mem_cons_of_mem _ hm)
    refine ⟨0x7B :: (writeLiteral key ++ 0x3A :: value ++ rest),
      by simp [write?, writeMembers?, written, writtenOn], fun b opens => ?_⟩
    have begun := (Reader.settles_between b).punctuation (c := 0x7B) (t := .beginObject) rfl
      (opens.take (by simp))
    obtain ⟨s, taken, settles⟩ := feedAll_member [] control
      (b := ⟨b.holders, .firstKey⟩) rfl reads
    refine ⟨_, ?_, Reader.settles_between _⟩
    rw [Reader.feedAll_step begun, Reader.feedAll_trans taken,
      readsOn b.holders [] key i s settles]
    rfl

theorem readsBack_of_writable {j : Json} (h : j.writable = true) : ReadsBack j := by
  induction j using Json.induction with
  | null => exact readsBack_null
  | bool value => exact readsBack_bool value
  | number n => exact readsBack_number h
  | string s => exact readsBack_string (by simpa [writable, every] using h)
  | array items ih =>
    rw [writable, every, everyItem_eq_all] at h
    exact readsBack_array fun j hj => ih j hj (List.all_eq_true.mp h j hj)
  | object members ih =>
    rw [writable, every, everyMember_eq_all] at h
    refine readsBack_object fun m hm => ?_
    have both := List.all_eq_true.mp h m hm
    rw [Bool.and_eq_true, Bool.not_eq_true'] at both
    exact ⟨both.1, ih m hm both.2⟩

/-- What is written is read as the same value. -/
theorem read?_write? {j : Json} (h : j.writable = true) :
    ∃ bytes, write? j = some bytes ∧ read? bytes = some j := by
  obtain ⟨bytes, written, reads⟩ := readsBack_of_writable h
  obtain ⟨r, fed, settles⟩ := reads {} (.inl rfl)
  refine ⟨bytes, written, ?_⟩
  change (Reader.feedAll {} bytes).bind (fun r => r.close.bind Builder.result?) = some j
  rw [fed, Option.bind_some, settles.closes]
  rfl

end ServiceDirectory.Json
