import ServiceDirectory.Time
import ServiceDirectory.Frame

/-! Settings of a connection: its timeouts, its limits, and how often and at which pace it tries
again. -/
namespace ServiceDirectory

/-- How often an attempt is repeated, and the pauses before the repetitions. -/
structure RetryPolicy where
  maxRetries : Nat := 3
  initialBackoffMs : UInt64 := 50
  maxBackoffMs : UInt64 := 5000
  backoffMultiplier : Float := 2.0
  deriving Inhabited

namespace RetryPolicy

/-- The largest count of anything. -/
def maxCount : Nat := UInt64.size - 1

/-- The largest exponent of the multiplier. -/
def maxExponent : Nat := 2147483647

/-- `r` times the power of `x` to `n`, by squaring. -/
def powerFrom (r x : Float) (n : Nat) : Float :=
  if n = 0 then r else powerFrom (if n % 2 = 1 then r * x else r) (x * x) (n / 2)
termination_by n

def power (x : Float) (n : Nat) : Float := powerFrom 1 x n

/-- The pause before repetition `attempt`, counted from one: the first pause times the multiplier
to the power `attempt - 1`, but at most the longest pause. -/
def backoff (p : RetryPolicy) (attempt : Nat) : Nat :=
  if attempt = 0 then 0
  else
    let longest := p.maxBackoffMs.toFloat
    let exponent := min (attempt - 1) maxExponent
    let pause := p.initialBackoffMs.toFloat * power p.backoffMultiplier exponent
    let pause := if pause.isFinite && pause ≤ longest then pause else longest
    Time.ofMillis (if pause ≤ 0 then 0 else pause.toUInt64.toNat)

/-- The first attempt and its repetitions. -/
def totalAttempts (p : RetryPolicy) : Nat := min (p.maxRetries + 1) maxCount

end RetryPolicy

structure Settings where
  connectTimeoutMs : UInt64 := 5000
  /-- A session on which no frame arrives for this long is dead. -/
  readTimeoutMs : UInt64 := 20000
  /-- The session timeout to ask for. -/
  sessionTimeoutMs : UInt64 := 40000
  pingIntervalMs : Option UInt64 := none
  /-- How many packets may be outstanding before a send is refused. -/
  maxOutstanding : Nat := 1000
  collectsLatency : Bool := false
  credentials : Option Credentials := none
  readOnlyAllowed : Bool := false
  retry : RetryPolicy := {}
  deriving Inhabited

namespace Settings

def connectTimeout (s : Settings) : Nat := Time.ofMillis s.connectTimeoutMs.toNat

def readTimeout (s : Settings) : Nat := Time.ofMillis s.readTimeoutMs.toNat

/-- The time between pings on a session with the timeout `negotiated`: the one that is set or
else a third of the shorter timeout, and never less than a millisecond. -/
def pingInterval (s : Settings) (negotiated : Nat) : Nat :=
  match s.pingIntervalMs with
  | some ms => Time.ofMillis (max ms.toNat 1)
  | none => max (min s.readTimeout negotiated / 3) (Time.ofMillis 1)

theorem pingInterval_pos (s : Settings) (negotiated : Nat) :
    0 < s.pingInterval negotiated := by
  unfold pingInterval
  split
  · simp only [Time.ofMillis]; omega
  · simp only [Time.ofMillis]; omega

end Settings
end ServiceDirectory
