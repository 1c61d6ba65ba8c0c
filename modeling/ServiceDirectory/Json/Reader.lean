import ServiceDirectory.Json.Number

/-! Reading JSON texts, byte by byte, in one pass and without recursion on the nesting: `Builder`
puts tokens together into a value with a stack of unfinished containers, and `Reader` cuts the
bytes into tokens. The grammar is strict, so nothing but blanks may surround the value. -/
namespace ServiceDirectory.Json

/-- What the bytes of a text are cut into. -/
inductive Token where
  | beginArray | endArray | beginObject | endObject | colon | comma
  | scalar (j : Json)
  | string (s : Literal)

/-- A container that is still open, its contents newest first. The value of `key` is missing. -/
inductive Holder where
  | array (items : List Json)
  | object (members : List (Literal × Json)) (key : Literal)

/-- What has to come next. -/
inductive Stage where
  /-- A value. -/
  | value
  /-- A value, or the end of the array just begun. -/
  | firstItem
  /-- A key, or the end of the object just begun. -/
  | firstKey
  /-- A key, after a comma. -/
  | key (members : List (Literal × Json))
  /-- The colon after a key. -/
  | colon (members : List (Literal × Json)) (key : Literal)
  /-- A comma or the end of the container, after the value `j`. -/
  | after (j : Json)

structure Builder where
  holders : List Holder := []
  stage : Stage := .value

namespace Builder

/-- Takes the first token of a value. -/
def begin (holders : List Holder) : Token → Option Builder
  | .scalar j => some ⟨holders, .after j⟩
  | .string s => some ⟨holders, .after (.string s)⟩
  | .beginArray => some ⟨.array [] :: holders, .firstItem⟩
  | .beginObject => some ⟨holders, .firstKey⟩
  | _ => none

/-- Takes the token that follows the value `j`. -/
def proceed (j : Json) : List Holder → Token → Option Builder
  | .array items :: holders, .comma => some ⟨.array (j :: items) :: holders, .value⟩
  | .array items :: holders, .endArray => some ⟨holders, .after (.array (j :: items).reverse)⟩
  | .object members k :: holders, .comma => some ⟨holders, .key ((k, j) :: members)⟩
  | .object members k :: holders, .endObject =>
    some ⟨holders, .after (.object ((k, j) :: members).reverse)⟩
  | _, _ => none

def take (b : Builder) (t : Token) : Option Builder :=
  match b.stage with
  | .value => begin b.holders t
  | .firstItem =>
    match b.holders, t with
    | .array _ :: holders, .endArray => some ⟨holders, .after (.array [])⟩
    | _, _ => begin b.holders t
  | .firstKey =>
    match t with
    | .string k => some ⟨b.holders, .colon [] k⟩
    | .endObject => some ⟨b.holders, .after (.object [])⟩
    | _ => none
  | .key members =>
    match t with
    | .string k => some ⟨b.holders, .colon members k⟩
    | _ => none
  | .colon members k =>
    match t with
    | .colon => some ⟨.object members k :: b.holders, .value⟩
    | _ => none
  | .after j => proceed j b.holders t

/-- The value, once it is complete. -/
def result? (b : Builder) : Option Json :=
  match b.holders, b.stage with
  | [], .after j => some j
  | _, _ => none

end Builder

/-- One piece of a string literal. -/
inductive Piece where
  /-- A byte as it stands. -/
  | raw (b : UInt8)
  /-- A byte written as a backslash and a letter. -/
  | escaped (b : UInt8)
  /-- A 16-bit unit written as a backslash, `u` and four hexadecimal digits. -/
  | unit (n : Nat)

/-- The bytes of a code point by the UTF-8 scheme, applied to surrogates as well. -/
def codeBytes (n : Nat) : List UInt8 :=
  if n < 0x80 then [UInt8.ofNat n]
  else if n < 0x800 then [UInt8.ofNat (0xC0 + n / 0x40), UInt8.ofNat (0x80 + n % 0x40)]
  else if n < 0x10000 then
    [UInt8.ofNat (0xE0 + n / 0x1000), UInt8.ofNat (0x80 + n / 0x40 % 0x40),
      UInt8.ofNat (0x80 + n % 0x40)]
  else
    [UInt8.ofNat (0xF0 + n / 0x40000), UInt8.ofNat (0x80 + n / 0x1000 % 0x40),
      UInt8.ofNat (0x80 + n / 0x40 % 0x40), UInt8.ofNat (0x80 + n % 0x40)]

def isLeading (n : Nat) : Bool := 0xD800 ≤ n && n ≤ 0xDBFF

def isTrailing (n : Nat) : Bool := 0xDC00 ≤ n && n ≤ 0xDFFF

/-- The bytes of a row of pieces. A leading and a trailing surrogate side by side make one code
point; a surrogate alone gives three bytes that no text contains. -/
def pieceBytes : List Piece → List UInt8
  | [] => []
  | .raw b :: rest => b :: pieceBytes rest
  | .escaped b :: rest => b :: pieceBytes rest
  | .unit m :: .unit n :: rest =>
    if isLeading m && isTrailing n then
      codeBytes (0x10000 + (m - 0xD800) * 0x400 + (n - 0xDC00)) ++ pieceBytes rest
    else codeBytes m ++ pieceBytes (.unit n :: rest)
  | .unit m :: rest => codeBytes m ++ pieceBytes rest

def Piece.isControl : Piece → Bool
  | .raw b => b < 0x20
  | _ => false

def Literal.ofPieces (pieces : List Piece) : Literal :=
  ⟨pieceBytes pieces, pieces.any (·.isControl)⟩

/-- Where the reader stands between two bytes. What it has collected is newest first. -/
inductive Mode where
  | between
  | word (letters : List UInt8)
  | number (row : List UInt8)
  | quoted (pieces : List Piece)
  | escape (pieces : List Piece)
  | hex (pieces : List Piece) (left : Nat) (n : Nat)

structure Reader where
  mode : Mode := .between
  builder : Builder := {}

namespace Reader

def isBlank (b : UInt8) : Bool := b == 0x20 || b == 0x09 || b == 0x0A || b == 0x0D

def isLetter (b : UInt8) : Bool := (0x61 ≤ b && b ≤ 0x7A) || (0x41 ≤ b && b ≤ 0x5A)

/-- The bytes that occur in numbers. -/
def isNumeric (b : UInt8) : Bool :=
  (0x30 ≤ b && b ≤ 0x39) || b == 0x2D || b == 0x2B || b == 0x2E || b == 0x65 || b == 0x45

def hexDigit? (b : UInt8) : Option Nat :=
  if 0x30 ≤ b ∧ b ≤ 0x39 then some (b.toNat - 0x30)
  else if 0x61 ≤ b ∧ b ≤ 0x66 then some (b.toNat - 0x57)
  else if 0x41 ≤ b ∧ b ≤ 0x46 then some (b.toNat - 0x37)
  else none

/-- The word for a scalar, letter by letter. -/
def word? : List UInt8 → Option Json
  | [0x6E, 0x75, 0x6C, 0x6C] => some .null
  | [0x74, 0x72, 0x75, 0x65] => some (.bool true)
  | [0x66, 0x61, 0x6C, 0x73, 0x65] => some (.bool false)
  | _ => none

def punctuation? (b : UInt8) : Option Token :=
  if b == 0x5B then some .beginArray
  else if b == 0x5D then some .endArray
  else if b == 0x7B then some .beginObject
  else if b == 0x7D then some .endObject
  else if b == 0x3A then some .colon
  else if b == 0x2C then some .comma
  else none

/-- The byte that a letter after a backslash stands for. -/
def escape? (b : UInt8) : Option UInt8 :=
  if b == 0x22 || b == 0x5C || b == 0x2F then some b
  else if b == 0x62 then some 0x08
  else if b == 0x66 then some 0x0C
  else if b == 0x6E then some 0x0A
  else if b == 0x72 then some 0x0D
  else if b == 0x74 then some 0x09
  else none

/-- Takes a byte that begins a token or stands between two. -/
def start (builder : Builder) (b : UInt8) : Option Reader :=
  if isBlank b then some ⟨.between, builder⟩
  else if b == 0x22 then some ⟨.quoted [], builder⟩
  else if isLetter b then some ⟨.word [b], builder⟩
  else if isNumeric b then some ⟨.number [b], builder⟩
  else do
    let t ← punctuation? b
    let builder ← builder.take t
    return ⟨.between, builder⟩

/-- Ends the token under way, where one may end. -/
def close (r : Reader) : Option Builder :=
  match r.mode with
  | .between => some r.builder
  | .word letters => do r.builder.take (.scalar (← word? letters.reverse))
  | .number row => do r.builder.take (.scalar (.number (← Number.read? row.reverse)))
  | _ => none

def feed (r : Reader) (b : UInt8) : Option Reader :=
  match r.mode with
  | .between => start r.builder b
  | .word letters =>
    if isLetter b then some { r with mode := .word (b :: letters) }
    else do start (← r.close) b
  | .number row =>
    if isNumeric b then some { r with mode := .number (b :: row) }
    else do start (← r.close) b
  | .quoted pieces =>
    if b == 0x22 then do
      let builder ← r.builder.take (.string (.ofPieces pieces.reverse))
      return ⟨.between, builder⟩
    else if b == 0x5C then some { r with mode := .escape pieces }
    else some { r with mode := .quoted (.raw b :: pieces) }
  | .escape pieces =>
    if b == 0x75 then some { r with mode := .hex pieces 4 0 }
    else do
      let e ← escape? b
      return { r with mode := .quoted (.escaped e :: pieces) }
  | .hex pieces left n => do
    let d ← hexDigit? b
    let n := 16 * n + d
    return { r with
      mode := if left ≤ 1 then .quoted (.unit n :: pieces) else .hex pieces (left - 1) n }

end Reader

/-- Reads the value that a row of bytes spells. -/
def read? (bytes : List UInt8) : Option Json := do
  let r ← bytes.foldlM Reader.feed {}
  (← r.close).result?

end ServiceDirectory.Json
