import ServiceDirectory.Json.Number

/-! Writing JSON texts, without blanks. A string escapes the quote, the backslash and the control
characters, the common ones by a letter; every other byte stands as it is. A double has no fixed
text here, so a value that holds one is not written. -/
namespace ServiceDirectory.Json

def hexDigit (n : Nat) : UInt8 := if n < 10 then UInt8.ofNat (0x30 + n) else UInt8.ofNat (0x57 + n)

/-- A byte of a string as it is written. -/
def writeByte (b : UInt8) : List UInt8 :=
  if b == 0x22 then [0x5C, 0x22]
  else if b == 0x5C then [0x5C, 0x5C]
  else if b == 0x08 then [0x5C, 0x62]
  else if b == 0x0C then [0x5C, 0x66]
  else if b == 0x0A then [0x5C, 0x6E]
  else if b == 0x0D then [0x5C, 0x72]
  else if b == 0x09 then [0x5C, 0x74]
  else if b < 0x20 then
    [0x5C, 0x75, 0x30, 0x30, hexDigit (b.toNat / 16), hexDigit (b.toNat % 16)]
  else [b]

def writeLiteral (s : Literal) : List UInt8 := 0x22 :: s.bytes.flatMap writeByte ++ [0x22]

/-- The text of a whole number; none for a double. -/
def writeNumber? : Number → Option (List UInt8)
  | .natural n => some (Number.digitBytes n)
  | .negative n => some (0x2D :: Number.digitBytes n)
  | _ => none

def nullWord : List UInt8 := [0x6E, 0x75, 0x6C, 0x6C]
def trueWord : List UInt8 := [0x74, 0x72, 0x75, 0x65]
def falseWord : List UInt8 := [0x66, 0x61, 0x6C, 0x73, 0x65]

mutual

def write? : Json → Option (List UInt8)
  | .null => some nullWord
  | .bool true => some trueWord
  | .bool false => some falseWord
  | .number n => writeNumber? n
  | .string s => some (writeLiteral s)
  | .array items => do return 0x5B :: (← writeItems? true items)
  | .object members => do return 0x7B :: (← writeMembers? true members)

/-- The items and the end of an array; a comma stands before each item but the first. -/
def writeItems? (first : Bool) : List Json → Option (List UInt8)
  | [] => some [0x5D]
  | j :: rest => do
    let item ← write? j
    let rest ← writeItems? false rest
    return (if first then [] else [0x2C]) ++ item ++ rest

/-- The members and the end of an object; a comma stands before each member but the first. -/
def writeMembers? (first : Bool) : List (Literal × Json) → Option (List UInt8)
  | [] => some [0x7D]
  | (k, j) :: rest => do
    let value ← write? j
    let rest ← writeMembers? false rest
    return (if first then [] else [0x2C]) ++ writeLiteral k ++ 0x3A :: value ++ rest

end

/-- The text of a value as bytes. -/
def bytes? (j : Json) : Option ByteArray := (write? j).map (·.toByteArray)

end ServiceDirectory.Json
