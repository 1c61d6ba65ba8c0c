/-! Time in whole nanoseconds. Lengths of time and points of time are natural numbers; a point is
counted from the start of its clock. -/
namespace ServiceDirectory.Time

/-- The length of `ms` milliseconds. -/
def ofMillis (ms : Nat) : Nat := ms * 1000000

/-- The whole microseconds of a length, as far as 64 bits reach. -/
def toMicros (t : Nat) : Nat := min (t / 1000) (UInt64.size - 1)

/-- The whole milliseconds of a length, as far as 64 bits reach. -/
def toMillis (t : Nat) : UInt64 := UInt64.ofNat (min (t / 1000000) (UInt64.size - 1))

end ServiceDirectory.Time
