import ServiceDirectory.Failure

/-! Messages on byte streams. A message goes out as the four bytes of its length, the highest
first, and then its bytes. A stream takes and gives as many bytes at a time as it likes, so
writing and reading go on until all bytes have passed. -/
namespace ServiceDirectory

/-- A stream to write to. `chunk` says how many bytes the n-th write takes at most, `limit` how
many bytes are taken altogether; after that a write fails with `fault`. -/
structure Outlet where
  written : ByteArray := .empty
  writes : Nat := 0
  chunk : Nat → Nat := fun _ => UInt64.size
  limit : Option Nat := none
  fault : StreamFault := default
  flushFault : Option StreamFault := none

/-- A stream to read from. `chunk` says how many bytes the n-th read gives at most. Behind the last
byte a read fails with `fault` or, without one, meets the end. -/
structure Inlet where
  bytes : ByteArray
  position : Nat := 0
  reads : Nat := 0
  chunk : Nat → Nat := fun _ => UInt64.size
  fault : Option StreamFault := none

namespace Outlet

/-- How many of `n` bytes the next write takes; it takes at least one unless the limit is
reached. -/
def capacity (o : Outlet) (n : Nat) : Nat :=
  let offered := min n (max (o.chunk o.writes) 1)
  match o.limit with
  | none => offered
  | some l => min offered (l - o.written.size)

/-- Writes the bytes from position `start` on, one write after the other. -/
def writeFrom (o : Outlet) (bytes : ByteArray) (start : Nat) : Except StreamFault Unit × Outlet :=
  if bytes.size ≤ start then (.ok (), o)
  else
    match h : o.capacity (bytes.size - start) with
    | 0 => (.error o.fault, { o with writes := o.writes + 1 })
    | n + 1 =>
      writeFrom
        { o with
          written := o.written ++ bytes.extract start (start + (n + 1))
          writes := o.writes + 1 }
        bytes (start + (n + 1))
termination_by bytes.size - start
decreasing_by omega

def writeAll (o : Outlet) (bytes : ByteArray) : Except StreamFault Unit × Outlet :=
  o.writeFrom bytes 0

def flush (o : Outlet) : Except StreamFault Unit :=
  match o.flushFault with
  | none => .ok ()
  | some f => .error f

end Outlet

namespace Inlet

/-- The number of bytes that have not been read. -/
def left (i : Inlet) : Nat := i.bytes.size - i.position

/-- How many of `n` bytes the next read gives. -/
def supply (i : Inlet) (n : Nat) : Nat := min (min n (max (i.chunk i.reads) 1)) i.left

theorem supply_le (i : Inlet) (n : Nat) : i.supply n ≤ n := by
  unfold supply
  omega

def earlyEof : StreamFault := ⟨.unexpectedEof, "early eof"⟩

/-- Reads `n` bytes, one read after the other, and puts them behind `got`. -/
def readOnto (i : Inlet) (got : ByteArray) (n : Nat) : Except StreamFault ByteArray × Inlet :=
  if n = 0 then (.ok got, i)
  else
    match h : i.supply n with
    | 0 => (.error (i.fault.getD earlyEof), { i with reads := i.reads + 1 })
    | k + 1 =>
      readOnto
        { i with position := i.position + (k + 1), reads := i.reads + 1 }
        (got ++ i.bytes.extract i.position (i.position + (k + 1))) (n - (k + 1))
termination_by n

def readExact (i : Inlet) (n : Nat) : Except StreamFault ByteArray × Inlet := i.readOnto .empty n

theorem supply_le_left (i : Inlet) (n : Nat) : i.supply n ≤ i.left := by
  unfold supply
  omega

end Inlet

namespace Framing

/-- The most bytes that a message may have. -/
def maxSize : Nat := 16 * 1024 * 1024

/-- The four bytes of a length, the highest first. -/
def header (n : Nat) : ByteArray :=
  [UInt8.ofNat (n / 16777216), UInt8.ofNat (n / 65536), UInt8.ofNat (n / 256),
    UInt8.ofNat n].toByteArray

/-- The length that four bytes stand for. -/
def length (b : ByteArray) : Nat := b.data.foldl (fun n x => 256 * n + x.toNat) 0

/-- A message with its length in front. -/
def frame (b : ByteArray) : ByteArray := header b.size ++ b

/-- A fault of a stream as a failure; `doing` says what was going on. -/
def failure (doing : String) (f : StreamFault) : Failure :=
  if f.isLoss then .connectionLoss (doing ++ ": " ++ f.text) else .stream f

def tooLarge (n : Nat) : Failure :=
  .protocol ("Frame too large: " ++ Decimal.string n ++ " bytes (max " ++
    Decimal.string maxSize ++ " bytes)")

/-- Writes a message. One that is too long is refused before a byte is written. -/
def send (o : Outlet) (b : ByteArray) : Except Failure Unit × Outlet :=
  if maxSize < b.size then (.error (tooLarge b.size), o)
  else
    match o.writeAll (header b.size) with
    | (.error f, o) => (.error (failure "writing length prefix" f), o)
    | (.ok (), o) =>
      match o.writeAll b with
      | (.error f, o) => (.error (failure "writing data" f), o)
      | (.ok (), o) =>
        match o.flush with
        | .error f => (.error (failure "flushing stream" f), o)
        | .ok () => (.ok (), o)

/-- Reads a message. -/
def receive (i : Inlet) : Except Failure ByteArray × Inlet :=
  match i.readExact 4 with
  | (.error f, i) => (.error (failure "reading length prefix" f), i)
  | (.ok b, i) =>
    if maxSize < length b then (.error (tooLarge (length b)), i)
    else
      match i.readExact (length b) with
      | (.error f, i) => (.error (failure "reading data" f), i)
      | (.ok b, i) => (.ok b, i)

theorem size_header (n : Nat) : (header n).size = 4 := rfl

theorem length_header {n : Nat} (h : n < UInt32.size) : length (header n) = n := by
  simp [UInt32.size] at h
  simp [length, header]
  omega

theorem maxSize_lt : maxSize < UInt32.size := by decide

theorem size_frame (b : ByteArray) : (frame b).size = 4 + b.size := by
  simp [frame, size_header]

end Framing
end ServiceDirectory
