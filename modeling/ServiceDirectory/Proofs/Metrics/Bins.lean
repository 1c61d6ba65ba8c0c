import Mathlib.Algebra.Group.Nat.Defs
import Mathlib.Order.Monotone.Basic
import ServiceDirectory.Metrics.Histogram

/-! Bins and the latencies that they stand for. The bounds of the bins are the notches of a scale,
which go from digit to digit and from decade to decade, and the bin of a latency is the last one
that does not begin beyond it. So the bins divide the latencies among them, a greater latency is
never in an earlier bin, and in the range that the bins are made for the next bin begins beyond the
latency, at no more than twice the bound of its own. -/
namespace ServiceDirectory.Histogram

theorem powerOfTen_pos (k : Nat) : 0 < powerOfTen k := Nat.pow_pos (by decide)

/-- The bounds of the bins, as if there were no greatest word. -/
def scale (b : Nat) : Nat := powerOfTen (b / 10) * max (b % 10) 1

/-- The bin of a latency, as if there were no last one. -/
def notch (us : Nat) : Nat := 10 * decade us + us / powerOfTen (decade us)

theorem scale_digit {d digit : Nat} (some : 1 ≤ digit) (single : digit ≤ 9) :
    scale (10 * d + digit) = powerOfTen d * digit := by
  have decade : (10 * d + digit) / 10 = d := by omega
  have leading : (10 * d + digit) % 10 = digit := by omega
  rw [scale, decade, leading, Nat.max_eq_left some]

/-- The next notch is that of the next digit. Behind the digit nine it is the first of the next
decade, where a tenth digit would be. -/
theorem scale_succ (b : Nat) : scale (b + 1) = powerOfTen (b / 10) * (b % 10 + 1) := by
  have single : b % 10 ≤ 9 := Nat.le_of_lt_succ (Nat.mod_lt b (by decide))
  rcases Nat.eq_or_lt_of_le single with nine | less
  · have decade : (b + 1) / 10 = b / 10 + 1 := by omega
    have leading : (b + 1) % 10 = 0 := by omega
    rw [scale, decade, leading, nine, powerOfTen_succ]
    exact Nat.mul_one _
  · have decade : (b + 1) / 10 = b / 10 := by omega
    have leading : (b + 1) % 10 = b % 10 + 1 := by omega
    rw [scale, decade, leading, Nat.max_eq_left (Nat.le_add_left 1 _)]

theorem scale_mono : Monotone scale := by
  refine monotone_nat_of_le_succ fun b => ?_
  rw [scale_succ, scale]
  exact Nat.mul_le_mul_left _ (Nat.max_le.mpr ⟨Nat.le_succ _, Nat.le_add_left 1 _⟩)

theorem scale_succ_le (b : Nat) : scale (b + 1) ≤ 2 * scale b := by
  rw [scale_succ, scale, Nat.mul_left_comm]
  exact Nat.mul_le_mul_left _ (by omega)

theorem lowerBound_eq (b : Nat) : lowerBound b = min (scale b) maxWord := by
  unfold lowerBound scale
  split
  · rename_i first
    rw [first]
    rfl
  · split
    · rfl
    · rename_i beyond
      have factor : powerOfTen (b / 10) ≤ powerOfTen (b / 10) * max (b % 10) 1 :=
        Nat.le_mul_of_pos_right _ (Nat.le_max_right _ 1)
      exact (Nat.min_eq_right (Nat.le_trans (Nat.le_of_not_le beyond) factor)).symm

theorem lowerBound_eq_scale {b : Nat} (inside : b ≤ binCount) : lowerBound b = scale b := by
  have limit : scale binCount ≤ maxWord := by decide
  rw [lowerBound_eq]
  exact Nat.min_eq_left (Nat.le_trans (scale_mono inside) limit)

theorem lowerBound_mono : Monotone lowerBound := by
  intro b b' h
  rw [lowerBound_eq, lowerBound_eq]
  exact Nat.le_min_of_le_of_le (Nat.le_trans (Nat.min_le_left _ _) (scale_mono h))
    (Nat.min_le_right _ _)

theorem lowerBound_succ_le (b : Nat) : lowerBound (b + 1) ≤ 2 * lowerBound b := by
  have double := scale_succ_le b
  rw [lowerBound_eq, lowerBound_eq]
  omega

section Bin

variable {us : Nat} (some : 0 < us)

include some

theorem leading_digit :
    1 ≤ us / powerOfTen (decade us) ∧ us / powerOfTen (decade us) ≤ 9 := by
  obtain ⟨bottom, top⟩ := decade_spec us some
  rw [powerOfTen_succ, Nat.mul_comm] at top
  exact ⟨Nat.div_pos bottom (powerOfTen_pos _),
    Nat.le_of_lt_succ (Nat.div_lt_of_lt_mul (Nat.mul_comm _ 10 ▸ top))⟩

theorem bin_eq_notch : bin us = min (notch us) (binCount - 1) := by
  rw [bin, if_neg (Nat.ne_of_gt some), Nat.min_eq_left (leading_digit some).2, notch]

theorem scale_notch_le : scale (notch us) ≤ us := by
  obtain ⟨one, nine⟩ := leading_digit some
  rw [notch, scale_digit one nine]
  exact Nat.mul_div_le us _

theorem lt_scale_notch_succ : us < scale (notch us + 1) := by
  obtain ⟨one, nine⟩ := leading_digit some
  have last : notch us / 10 = decade us := by
    rw [notch]
    omega
  have leading : notch us % 10 = us / powerOfTen (decade us) := by
    rw [notch]
    omega
  rw [scale_succ, last, leading]
  exact Nat.lt_mul_div_succ us (powerOfTen_pos _)

theorem le_notch_iff {b : Nat} : b ≤ notch us ↔ scale b ≤ us := by
  refine ⟨fun le => Nat.le_trans (scale_mono le) (scale_notch_le some), fun begins => ?_⟩
  by_contra beyond
  have next : scale (notch us + 1) ≤ scale b := scale_mono (Nat.lt_of_not_le beyond)
  exact Nat.not_lt_of_le (Nat.le_trans next begins) (lt_scale_notch_succ some)

theorem le_bin_iff {b : Nat} (inside : b < binCount) : b ≤ bin us ↔ lowerBound b ≤ us := by
  rw [lowerBound_eq_scale (Nat.le_of_lt inside), ← le_notch_iff some, bin_eq_notch some,
    Nat.le_min]
  -- No bin comes after the last one, so capping the notch there changes nothing.
  exact and_iff_left (Nat.le_sub_one_of_lt inside)

theorem lowerBound_bin_le : lowerBound (bin us) ≤ us :=
  (le_bin_iff some (bin_lt us)).mp (Nat.le_refl _)

/-- A bin takes the latencies from its bound on to that of the next bin, and the last bin takes all
that are left. -/
theorem bin_eq_iff {b : Nat} (inside : b < binCount) :
    bin us = b ↔ lowerBound b ≤ us ∧ (us < lowerBound (b + 1) ∨ b + 1 = binCount) := by
  rw [← le_bin_iff some inside]
  have next : b + 1 ≤ binCount := inside
  rcases Nat.eq_or_lt_of_le next with last | more
  · have most := bin_lt us
    omega
  · have behind := le_bin_iff some more
    omega

theorem lt_lowerBound_bin_succ (inside : us < powerOfTen 10) : us < lowerBound (bin us + 1) := by
  have next : bin us + 1 ≤ binCount := bin_lt us
  rcases Nat.eq_or_lt_of_le next with last | more
  · have limit : powerOfTen 10 = lowerBound binCount := by decide
    rwa [last, ← limit]
  · exact Nat.lt_of_not_le fun begins =>
      Nat.not_succ_le_self _ ((le_bin_iff some more).mpr begins)

theorem bin_encloses (inside : us < powerOfTen 10) :
    lowerBound (bin us) ≤ us ∧ us < lowerBound (bin us + 1) ∧
      lowerBound (bin us + 1) ≤ 2 * lowerBound (bin us) :=
  ⟨lowerBound_bin_le some, lt_lowerBound_bin_succ some inside, lowerBound_succ_le _⟩

end Bin

theorem bin_mono {us us' : Nat} (h : us ≤ us') : bin us ≤ bin us' := by
  rcases Nat.eq_zero_or_pos us with rfl | some
  · exact Nat.zero_le _
  · exact (le_bin_iff (Nat.lt_of_lt_of_le some h) (bin_lt us)).mpr
      (Nat.le_trans (lowerBound_bin_le some) h)

/-- The digit nine is followed by the digit one of the next decade. -/
example : [0, 1, 9, 10, 99, 250, 1000000, maxWord].map bin = [0, 1, 9, 11, 19, 22, 61, 99] := by
  decide +kernel

/-- The bins divide the latencies among them. The bin of a latency is one of the hundred, found by a
division by a power of ten that is itself in the range of the words; it begins no later than the
latency, and, in the range that the bins are made for, the next one begins beyond it. Each bin
takes the latencies from its bound on to that of the next bin, and the last bin all that are left.
A greater latency is in the same bin or a later one, and the bounds of the bins never fall. -/
theorem bins_partition :
    (∀ us, 1 ≤ us → us ≤ maxWord →
      bin us ≤ 99 ∧ powerOfTen (decade us) ≤ maxWord ∧ lowerBound (bin us) ≤ us ∧
      (us < 10 ^ 10 → us < lowerBound (bin us + 1)) ∧
      ∀ b ≤ 99, bin us = b ↔ lowerBound b ≤ us ∧ (us < lowerBound (b + 1) ∨ b = 99)) ∧
    Monotone bin ∧ Monotone lowerBound := by
  refine ⟨fun us some word => ?_, fun _ _ => bin_mono, lowerBound_mono⟩
  have power : powerOfTen (decade us) ≤ us := (decade_spec us some).1
  refine ⟨Nat.le_of_lt_succ (bin_lt us), Nat.le_trans power word, lowerBound_bin_le some,
    lt_lowerBound_bin_succ some, fun b inside => ?_⟩
  rw [bin_eq_iff some (Nat.lt_succ_of_le inside), binCount, Nat.succ_inj]

/-- A thousand begins a decade and is in the bin of its leading digit. The bin in front has the
same bound, so it takes nothing. -/
theorem bins_partition_of_thousand :
    (1 ≤ 1000 ∧ 1000 ≤ maxWord ∧ 1000 < 10 ^ 10) ∧
    bin 1000 = 31 ∧ bin 1000 ≠ 30 ∧
    powerOfTen (decade 1000) ≤ maxWord ∧
    lowerBound (bin 1000) ≤ 1000 ∧ 1000 < lowerBound (bin 1000 + 1) ∧
    bin 999 ≤ bin 1000 ∧ lowerBound 30 ≤ lowerBound 31 := by
  have word : 1000 ≤ maxWord := by decide
  have inside : 1000 < 10 ^ 10 := by decide
  obtain ⟨each, bin_rises, bound_rises⟩ := bins_partition
  obtain ⟨-, power, below, above, takes⟩ := each 1000 (by decide) word
  have here : bin 1000 = 31 := (takes 31 (by decide)).mpr (by decide)
  have elsewhere : bin 1000 ≠ 30 := fun front =>
    absurd ((takes 30 (by decide)).mp front) (by decide)
  exact ⟨⟨by decide, word, inside⟩, here, elsewhere, power, below, above inside,
    bin_rises (by decide), bound_rises (by decide)⟩

end ServiceDirectory.Histogram
