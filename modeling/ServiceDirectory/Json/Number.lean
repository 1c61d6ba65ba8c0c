import ServiceDirectory.Json.Value
import ServiceDirectory.Text.Decimal

/-! Numbers of JSON texts. A number without a fraction and an exponent stays whole if it fits in
64 bits. Every other one becomes a double: as many leading digits as fit in 64 bits, taken as a
whole number and scaled by one multiplication with, or division by, a power of ten. -/
namespace ServiceDirectory.Json.Number

/-- The parts of a numeral: sign, digits before the point, digits after it, and the exponent. -/
structure Numeral where
  minus : Bool
  whole : List Nat
  fraction : Option (List Nat)
  exponent : Option (Bool × List Nat)

def digit? (b : UInt8) : Option Nat :=
  if 48 ≤ b ∧ b ≤ 57 then some (b.toNat - 48) else none

/-- Splits a row of digits off the front. -/
def takeDigits : List UInt8 → List Nat × List UInt8
  | [] => ([], [])
  | b :: rest =>
    match digit? b with
    | some d => ((d :: (takeDigits rest).1), (takeDigits rest).2)
    | none => ([], b :: rest)

/-- Reads a numeral that fills the whole row of bytes. The digits before the point have no
leading zero, and a point and an exponent mark are each followed by a digit. -/
def numeral? (s : List UInt8) : Option Numeral := do
  let (minus, s) := match s with
    | 0x2D :: rest => (true, rest)
    | _ => (false, s)
  let (whole, s) := takeDigits s
  guard (!whole.isEmpty && (whole.length == 1 || whole.head? != some 0))
  let (fraction, s) ← match s with
    | 0x2E :: rest =>
      let (ds, rest) := takeDigits rest
      if ds.isEmpty then none else some (some ds, rest)
    | _ => some (none, s)
  let (exponent, s) ← match s with
    | e :: rest =>
      if e == 0x65 || e == 0x45 then
        let (below, rest) := match rest with
          | 0x2B :: rest => (false, rest)
          | 0x2D :: rest => (true, rest)
          | _ => (false, rest)
        let (ds, rest) := takeDigits rest
        if ds.isEmpty then none else some (some (below, ds), rest)
      else some (none, s)
    | [] => some (none, s)
  guard s.isEmpty
  return ⟨minus, whole, fraction, exponent⟩

/-- Appends digits to a whole number for as long as the result fits in 64 bits; returns the
number and the digits left over. -/
def absorb (n : Nat) : List Nat → Nat × List Nat
  | [] => (n, [])
  | d :: ds => if 10 * n + d < UInt64.size then absorb (10 * n + d) ds else (n, d :: ds)

def powerOfTen (k : Nat) : Float := Float.ofScientific 1 false k

/-- `x` times ten to the power `e`. Below `-308` the scaling goes in steps, and three of them
take every 64-bit number to zero. -/
def scale (x : Float) (e : Int) : Nat → Number
  | 0 => .real 0
  | steps + 1 =>
    if e.natAbs ≤ 308 then
      if 0 ≤ e then
        let y := x * powerOfTen e.natAbs
        if y.isInf then .outOfRange else .real y
      else .real (x / powerOfTen e.natAbs)
    else if x == 0 then .real x
    else if 0 ≤ e then .outOfRange
    else scale (x / powerOfTen 308) (e + 308) steps

def negate : Number → Number
  | .real x => .real (-x)
  | n => n

/-- The largest exponent that is taken at its value. -/
def maxExponent : Nat := 2147483647

/-- The number of a numeral. -/
def ofNumeral (l : Numeral) : Number :=
  let n := Decimal.value l.whole
  let plain := l.fraction.isNone && l.exponent.isNone
  if plain && n < UInt64.size && !l.minus then .natural n
  else if plain && 0 < n && n ≤ 9223372036854775808 then .negative n
  else
    let (significand, dropped) := absorb 0 l.whole
    let fraction := l.fraction.getD []
    let (significand, unread) := absorb significand fraction
    let shift : Int := dropped.length - (fraction.length - unread.length : Nat)
    let sign := if l.minus then negate else id
    let x := (UInt64.ofNat significand).toFloat
    match l.exponent with
    | none => sign (scale x shift 4)
    | some (below, ds) =>
      let e := Decimal.value ds
      if maxExponent < e then
        if significand != 0 && !below then .outOfRange else sign (.real 0)
      else sign (scale x (if below then shift - e else shift + e) 4)

/-- Reads a number that fills the whole row of bytes. -/
def read? (s : List UInt8) : Option Number := (numeral? s).map ofNumeral

/-- The digits of a whole number as bytes. -/
def digitBytes (n : Nat) : List UInt8 := (Decimal.digits n).map fun d => UInt8.ofNat (48 + d)

theorem digit?_ofNat {d : Nat} (h : d < 10) : digit? (UInt8.ofNat (48 + d)) = some d := by
  have : d = 0 ∨ d = 1 ∨ d = 2 ∨ d = 3 ∨ d = 4 ∨ d = 5 ∨ d = 6 ∨ d = 7 ∨ d = 8 ∨ d = 9 := by
    omega
  rcases this with h | h | h | h | h | h | h | h | h | h <;> subst h <;> decide

theorem takeDigits_digitBytes (n : Nat) : takeDigits (digitBytes n) = (Decimal.digits n, []) := by
  have h := Decimal.digits_lt_ten n
  unfold digitBytes
  generalize Decimal.digits n = ds at h
  induction ds with
  | nil => rfl
  | cons d ds ih =>
    have ih := ih fun e he => h e (List.mem_cons_of_mem d he)
    simp only [List.map_cons, takeDigits, digit?_ofNat (h d List.mem_cons_self), ih]

end ServiceDirectory.Json.Number
