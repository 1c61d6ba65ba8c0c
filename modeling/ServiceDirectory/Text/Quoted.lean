import ServiceDirectory.Text.Decimal

/-! Quoted forms of texts and of rows of bytes, for messages that show a value as it is built up.
Quotes, backslashes and control characters are escaped. Characters beyond the basic alphabet count
as printable and stand as they are. -/
namespace ServiceDirectory.Text

def hexChar (n : Nat) : Char := Char.ofNat (if n < 10 then 48 + n else 87 + n)

/-- A number in hexadecimal digits. -/
def hex (n : Nat) : List Char := if n < 16 then [hexChar n] else hex (n / 16) ++ [hexChar (n % 16)]
termination_by n

/-- A character between quotes. -/
def quoteChar (c : Char) : List Char :=
  if c = '"' ∨ c = '\\' then ['\\', c]
  else if c = '\t' then ['\\', 't']
  else if c = '\r' then ['\\', 'r']
  else if c = '\n' then ['\\', 'n']
  else if c.toNat = 0 then ['\\', '0']
  else if c.toNat < 0x20 ∨ c.toNat = 0x7F then ['\\', 'u', '{'] ++ hex c.toNat ++ ['}']
  else [c]

def quoted (s : String) : String := String.ofList ('"' :: s.toList.flatMap quoteChar ++ ['"'])

/-- A byte between quotes. -/
def quoteByte (b : UInt8) : List Char :=
  let n := b.toNat
  if n = 0x22 ∨ n = 0x5C then ['\\', Char.ofNat n]
  else if n = 0x09 then ['\\', 't']
  else if n = 0x0D then ['\\', 'r']
  else if n = 0x0A then ['\\', 'n']
  else if n = 0 then ['\\', '0']
  else if 0x20 ≤ n ∧ n < 0x7F then [Char.ofNat n]
  else ['\\', 'x', hexChar (n / 16), hexChar (n % 16)]

/-- A row of bytes between quotes, with a `b` in front. -/
def quotedBytes (b : ByteArray) : String :=
  String.ofList ('b' :: '"' :: b.data.toList.flatMap quoteByte ++ ['"'])

end ServiceDirectory.Text
