/-! Histograms of latencies in microseconds, with a hundred bins. Each power of ten has ten bins,
one for each leading digit, and a percentile is read off inside the bin where it falls. What is
kept, the counts as well as the sum, goes modulo 2 ^ 64. The search for a percentile adds up the
counts of the bins as they are; this sum stays below 2 ^ 64 unless there are more samples than one
counter tells. -/
namespace ServiceDirectory.Histogram

def binCount : Nat := 100

def wordSize : Nat := UInt64.size

def maxWord : Nat := UInt64.size - 1

def powerOfTen (k : Nat) : Nat := Nat.pow 10 k

theorem powerOfTen_succ (k : Nat) : powerOfTen (k + 1) = powerOfTen k * 10 := rfl

/-- How often a number can be divided by ten before it falls below ten. -/
def decade (n : Nat) : Nat := if n < 10 then 0 else decade (n / 10) + 1
termination_by n

/-- The bin of a latency: ten times its decade, plus its leading digit. -/
def bin (us : Nat) : Nat :=
  if us = 0 then 0
  else min (10 * decade us + min (us / powerOfTen (decade us)) 9) (binCount - 1)

/-- The least latency of a bin. -/
def lowerBound (b : Nat) : Nat :=
  if b = 0 then 1
  else if powerOfTen (b / 10) ≤ maxWord then min (powerOfTen (b / 10) * max (b % 10) 1) maxWord
  else maxWord

theorem decade_spec (n : Nat) (h : 0 < n) :
    powerOfTen (decade n) ≤ n ∧ n < powerOfTen (decade n + 1) := by
  fun_induction decade n with
  | case1 n h' => exact ⟨h, h'⟩
  | case2 n h' ih =>
    obtain ⟨lo, hi⟩ := ih (by omega)
    constructor
    · rw [powerOfTen_succ]
      have := Nat.mul_le_mul_right 10 lo
      omega
    · rw [powerOfTen_succ]
      have := Nat.mul_le_mul_right 10 (Nat.succ_le_of_lt hi)
      omega

theorem bin_lt (us : Nat) : bin us < binCount := by
  unfold bin binCount
  split <;> omega

end Histogram

/-- The counts of the bins, the sum of all latencies, and their number. -/
structure Histogram where
  bins : List Nat := List.replicate Histogram.binCount 0
  total : Nat := 0
  count : Nat := 0
  deriving DecidableEq

/-- What a histogram tells about one stage, in microseconds. -/
structure StageLatency where
  count : Nat := 0
  average : Nat := 0
  p50 : Nat := 0
  p95 : Nat := 0
  p99 : Nat := 0
  deriving DecidableEq, Inhabited

namespace Histogram

/-- A counter after one more; behind the last word it begins again. -/
def increment (n : Nat) : Nat := (n + 1) % wordSize

def record (h : Histogram) (us : Nat) : Histogram :=
  { bins := h.bins.modify (bin us) increment
    total := (h.total + us) % wordSize
    count := increment h.count }

/-- Where the sample of a rank lies: its bin, its rank among the samples of the bin, and how many
those are. -/
structure Place where
  bin : Nat
  offset : Nat
  within : Nat
  deriving DecidableEq

/-- Goes through bins from number `b` on, with `below` samples before them, to the one with the
sample of the rank `target`. -/
def locate (target below b : Nat) : List Nat → Option Place
  | [] => none
  | n :: rest =>
    if 0 < n ∧ target ≤ below + n then some ⟨b, target - below, n⟩
    else locate target (below + n) (b + 1) rest

/-- The rank of a percentile: its share of the samples, rounded down, and at least one. -/
def rank (count percent : Nat) : Nat := max (count * percent % wordSize / 100) 1

/-- The ends of the stretch that a bin is taken to cover. -/
def stretch (b : Nat) : Nat × Nat := (lowerBound b, max (lowerBound (b + 1)) (lowerBound b))

/-- A kind of fractional numbers, by what it takes to interpolate with them. -/
structure Arithmetic (α : Type) where
  ofNat : Nat → α
  add : α → α → α
  mul : α → α → α
  div : α → α → α
  /-- The whole part of a number that is not negative. -/
  whole : α → Nat

/-- Numbers of double precision, which round. Percentiles are estimated with these. -/
def Arithmetic.double : Arithmetic Float where
  ofNat n := (UInt64.ofNat n).toFloat
  add x y := x + y
  mul x y := x * y
  div x y := x / y
  whole x := x.toUInt64.toNat

section

variable {α : Type} (num : Arithmetic α)

/-- The point of a bin that stands for a place in it, by proportion. -/
def interpolate (p : Place) : Nat :=
  let (start, stop) := stretch p.bin
  let fraction := num.div (num.ofNat p.offset) (num.ofNat p.within)
  num.whole (num.add (num.ofNat start) (num.mul fraction (num.ofNat (stop - start))))

/-- An estimate of a percentile; zero if there are no samples. -/
def percentile (h : Histogram) (percent : Nat) : Nat :=
  if h.count = 0 then 0
  else
    match locate (rank h.count percent) 0 0 h.bins with
    | some p => interpolate num p
    | none => lowerBound binCount

/-- The summary of a histogram, with percentiles in some kind of numbers. -/
def summaryIn (h : Histogram) : StageLatency :=
  if h.count = 0 then {}
  else
    { count := h.count
      average := h.total / h.count
      p50 := h.percentile num 50
      p95 := h.percentile num 95
      p99 := h.percentile num 99 }

end

def summary (h : Histogram) : StageLatency := h.summaryIn .double

theorem count_summary (h : Histogram) : h.summary.count = h.count := by
  unfold summary summaryIn
  split
  · rename_i none
    exact none.symm
  · rfl

theorem average_summary (h : Histogram) : h.summary.average = h.total / h.count := by
  unfold summary summaryIn
  split
  · rename_i none
    rw [none, Nat.div_zero]
  · rfl

@[simp] theorem record_count (h : Histogram) (us : Nat) :
    (h.record us).count = increment h.count := rfl

@[simp] theorem record_total (h : Histogram) (us : Nat) :
    (h.record us).total = (h.total + us) % wordSize := rfl

end Histogram
end ServiceDirectory
