import Mathlib.Algebra.Order.Floor.Semifield
import Mathlib.Data.List.Sort
import Mathlib.Data.Rat.Floor
import ServiceDirectory.Proofs.Metrics.Bins
import ServiceDirectory.Proofs.Metrics.Recording

/-! How near the estimate of a percentile comes to the sample that it stands for. The search through
the bins ends in the bin of the sample of the rank that is asked for, and an interpolation that does
not round stays between the bounds of this bin. -/
namespace ServiceDirectory.Histogram

def Arithmetic.exact : Arithmetic ℚ where
  ofNat n := n
  add x y := x + y
  mul x y := x * y
  div x y := x / y
  whole x := ⌊x⌋₊

/-- The sample of a rank, counted from one in ascending order. -/
def atRank (samples : List Nat) (k : Nat) : Option Nat :=
  (samples.insertionSort (· ≤ ·))[k - 1]?

theorem interpolate_exact (p : Place) :
    interpolate .exact p = lowerBound p.bin +
      p.offset * (lowerBound (p.bin + 1) - lowerBound p.bin) / p.within := by
  have stop : max (lowerBound (p.bin + 1)) (lowerBound p.bin) = lowerBound (p.bin + 1) :=
    Nat.max_eq_left (lowerBound_mono (Nat.le_succ _))
  simp only [interpolate, stretch, stop, Arithmetic.exact]
  rw [div_mul_eq_mul_div, ← Nat.cast_mul, add_comm, Nat.floor_add_natCast (by positivity),
    Nat.floor_div_eq_div, add_comm]

theorem interpolate_exact_between {p : Place} (reached : p.offset ≤ p.within) :
    lowerBound p.bin ≤ interpolate .exact p ∧
      interpolate .exact p ≤ lowerBound (p.bin + 1) := by
  have rises : lowerBound p.bin ≤ lowerBound (p.bin + 1) := lowerBound_mono (Nat.le_succ _)
  have share : p.offset * (lowerBound (p.bin + 1) - lowerBound p.bin) / p.within ≤
      lowerBound (p.bin + 1) - lowerBound p.bin :=
    Nat.div_le_of_le_mul (Nat.mul_le_mul_right _ reached)
  rw [interpolate_exact]
  refine ⟨Nat.le_add_right _ _, ?_⟩
  rw [← Nat.le_sub_iff_add_le' rises]
  exact share

theorem locate_eq_some {target below b : Nat} {ns : List Nat} (ahead : below < target)
    (enough : target ≤ below + ns.sum) :
    ∃ i n, ns[i]? = some n ∧ below + (ns.take i).sum < target ∧
      target ≤ below + (ns.take i).sum + n ∧
      locate target below b ns = some ⟨b + i, target - (below + (ns.take i).sum), n⟩ := by
  induction ns generalizing below b with
  | nil => exact absurd enough (Nat.not_le_of_lt ahead)
  | cons n rest ih =>
    rw [locate]
    split
    · rename_i here
      exact ⟨0, n, rfl, ahead, here.2, rfl⟩
    · rename_i later
      have ahead' : below + n < target := by omega
      obtain ⟨i, m, found, before, reached, located⟩ :=
        ih (b := b + 1) ahead' (by rwa [Nat.add_assoc, ← List.sum_cons])
      refine ⟨i + 1, m, found, ?_, ?_, ?_⟩
      all_goals simp only [List.take_succ_cons, List.sum_cons, ← Nat.add_assoc]
      · exact before
      · exact reached
      · rw [located, Nat.add_right_comm b 1 i]

/-- A place is that of a rank among some samples: so many are in the bins before it, and with its
offset, which does not exceed the samples of its bin, the rank is reached. -/
structure Located (samples : List Nat) (k : Nat) (p : Place) : Prop where
  rank_eq : preceding samples p.bin + p.offset = k
  beyond : 0 < p.offset
  within_eq : p.within = samples.countP (bin · = p.bin)
  reached : p.offset ≤ p.within

theorem preceding_mono (samples : List Nat) : Monotone (preceding samples) :=
  fun _ _ h => List.countP_mono_left fun _ _ less => by
    rw [decide_eq_true_eq] at less ⊢
    exact Nat.lt_of_lt_of_le less h

section

variable {samples : List Nat} {k k' : Nat} {p p' : Place}

theorem exists_located (few : samples.length < wordSize) (one : 1 ≤ k)
    (most : k ≤ samples.length) :
    ∃ p, locate k 0 0 (ofSamples samples).bins = some p ∧ p.bin < binCount ∧
      Located samples k p := by
  have enough : k ≤ 0 + (ofSamples samples).bins.sum := by
    rwa [sum_bins_ofSamples few, Nat.zero_add]
  obtain ⟨b, n, found, before, reached, located⟩ :=
    locate_eq_some (b := 0) (Nat.lt_of_succ_le one) enough
  rw [bins_ofSamples_of_few few, List.getElem?_map, Option.map_eq_some_iff] at found
  obtain ⟨_, found, rfl⟩ := found
  obtain ⟨inside, same⟩ := List.getElem?_eq_some_iff.mp found
  rw [List.getElem_range] at same
  rw [List.length_range] at inside
  subst same
  rw [Nat.zero_add, sum_take_bins_ofSamples few (Nat.le_of_lt inside)] at before reached located
  rw [Nat.zero_add] at located
  refine ⟨_, located, inside, ⟨?_, Nat.sub_pos_of_lt before, rfl, ?_⟩⟩
  · exact Nat.add_sub_cancel' (Nat.le_of_lt before)
  · exact Nat.sub_le_of_le_add (Nat.add_comm .. ▸ reached)

theorem Located.between (h : Located samples k p) :
    preceding samples p.bin < k ∧ k ≤ preceding samples (p.bin + 1) := by
  have beyond := h.beyond
  have reached := h.reached
  rw [h.within_eq] at reached
  rw [preceding_succ, ← h.rank_eq]
  omega

theorem Located.bin_eq (h : Located samples k p) {b : Nat} (before : preceding samples b < k)
    (enough : k ≤ preceding samples (b + 1)) : p.bin = b := by
  obtain ⟨before', enough'⟩ := h.between
  rcases Nat.lt_trichotomy p.bin b with less | same | more
  · have few : preceding samples (p.bin + 1) ≤ _ := preceding_mono samples less
    omega
  · exact same
  · have few : preceding samples (b + 1) ≤ _ := preceding_mono samples more
    omega

theorem preceding_of_sorted {front back : List Nat} {x : Nat}
    (sorted : (front ++ x :: back).Pairwise (· ≤ ·)) :
    preceding (front ++ x :: back) (bin x) ≤ front.length ∧
      front.length < preceding (front ++ x :: back) (bin x + 1) := by
  obtain ⟨-, tail, front_le⟩ := List.pairwise_append.mp sorted
  have back_ge := (List.pairwise_cons.mp tail).1
  have none_later : preceding (x :: back) (bin x) = 0 := by
    refine List.countP_eq_zero.mpr fun us mem less => ?_
    rw [decide_eq_true_eq] at less
    rcases List.mem_cons.mp mem with rfl | mem
    · exact Nat.lt_irrefl _ less
    · exact Nat.not_le_of_lt less (bin_mono (back_ge us mem))
  have all_before : preceding front (bin x + 1) = front.length :=
    List.countP_eq_length.mpr fun us mem =>
      decide_eq_true (Nat.lt_succ_of_le (bin_mono (front_le us mem x List.mem_cons_self)))
  have itself : 0 < preceding (x :: back) (bin x + 1) :=
    List.countP_pos_iff.mpr ⟨x, List.mem_cons_self, decide_eq_true (Nat.lt_succ_self _)⟩
  have append (b : Nat) : preceding (front ++ x :: back) b =
      preceding front b + preceding (x :: back) b := List.countP_append
  rw [append, append, none_later, all_before]
  exact ⟨List.countP_le_length, Nat.lt_add_of_pos_right itself⟩

theorem Located.bin_eq_of_atRank (h : Located samples k p) (one : 1 ≤ k) {x : Nat}
    (found : atRank samples k = some x) : p.bin = bin x := by
  obtain ⟨inside, at_rank⟩ := List.getElem?_eq_some_iff.mp found
  have split := (List.take_append_drop (k - 1) (samples.insertionSort (· ≤ ·))).symm
  rw [List.drop_eq_getElem_cons inside, at_rank] at split
  have sorted := List.pairwise_insertionSort (· ≤ ·) samples
  rw [split] at sorted
  have same (b : Nat) : preceding (samples.insertionSort (· ≤ ·)) b = preceding samples b :=
    (List.perm_insertionSort (· ≤ ·) samples).countP_eq _
  obtain ⟨before, enough⟩ := preceding_of_sorted sorted
  rw [← split, same, List.length_take] at before enough
  exact h.bin_eq (by omega) (by omega)

/-- A later rank is in the same bin or a later one, and stands for as much or more. -/
theorem Located.interpolate_le (h : Located samples k p) (h' : Located samples k' p')
    (le : k ≤ k') : interpolate .exact p ≤ interpolate .exact p' := by
  rcases Nat.lt_trichotomy p.bin p'.bin with less | same | more
  · calc interpolate .exact p
      _ ≤ lowerBound (p.bin + 1) := (interpolate_exact_between h.reached).2
      _ ≤ lowerBound p'.bin := lowerBound_mono (Nat.succ_le_of_lt less)
      _ ≤ interpolate .exact p' := (interpolate_exact_between h'.reached).1
  · have offset : p.offset ≤ p'.offset := by
      have rank := h.rank_eq
      have rank' := h'.rank_eq
      rw [same] at rank
      omega
    rw [interpolate_exact, interpolate_exact, h.within_eq, h'.within_eq, same]
    exact Nat.add_le_add_left (Nat.div_le_div_right (Nat.mul_le_mul_right _ offset)) _
  · -- The bins up to that of the later rank would hold fewer samples than the earlier one asks for.
    have few : preceding samples (p'.bin + 1) ≤ _ := preceding_mono samples more
    have before := h.between.1
    have enough := h'.between.2
    omega

theorem exists_atRank (one : 1 ≤ k) (most : k ≤ samples.length) :
    ∃ x, atRank samples k = some x := by
  have inside : k - 1 < (samples.insertionSort (· ≤ ·)).length := by
    rw [(List.perm_insertionSort (· ≤ ·) samples).length_eq]
    omega
  exact ⟨_, List.getElem?_eq_getElem inside⟩

/-- The rank of a percentile is its share of the samples, and so the rank of a sample, unless there
are too many of them to compute it. -/
theorem rank_eq {n percent : Nat} (some : 0 < n) (few : n * 99 < wordSize) (part : percent ≤ 99) :
    rank n percent = max 1 (n * percent / 100) ∧ max 1 (n * percent / 100) ≤ n := by
  have share : n * percent ≤ n * 99 := Nat.mul_le_mul_left n part
  rw [rank, Nat.mod_eq_of_lt (Nat.lt_of_le_of_lt share few), Nat.max_comm]
  exact ⟨rfl, Nat.max_le.mpr ⟨some, Nat.div_le_of_le_mul (by omega)⟩⟩

theorem count_eq_length (few : samples.length * 99 < wordSize) :
    (ofSamples samples).count = samples.length := by
  rw [count_ofSamples]
  exact Nat.mod_eq_of_lt (by omega)

section

variable (some_sample : samples ≠ []) (few : samples.length * 99 < wordSize)

include some_sample few

theorem exists_place {percent : Nat} (part : percent ≤ 99) :
    ∃ p, locate (rank (ofSamples samples).count percent) 0 0 (ofSamples samples).bins = some p ∧
      p.bin < binCount ∧ Located samples (max 1 (samples.length * percent / 100)) p ∧
      ∀ {α : Type} (num : Arithmetic α),
        (ofSamples samples).percentile num percent = interpolate num p := by
  have some : 0 < samples.length := List.length_pos_iff.mpr some_sample
  have counted := count_eq_length few
  obtain ⟨same, most⟩ := rank_eq some few part
  obtain ⟨p, found, inside, located⟩ := exists_located (by omega) (Nat.le_max_left 1 _) most
  rw [counted, same]
  refine ⟨p, found, inside, located, fun num => ?_⟩
  rw [percentile, counted, if_neg (Nat.ne_of_gt some), same, found]

theorem percentile_mono {percent percent' : Nat} (le : percent ≤ percent') (part : percent' ≤ 99) :
    (ofSamples samples).percentile .exact percent ≤
      (ofSamples samples).percentile .exact percent' := by
  obtain ⟨p, -, -, located, estimate⟩ := exists_place some_sample few (Nat.le_trans le part)
  obtain ⟨p', -, -, located', estimate'⟩ := exists_place some_sample few part
  have rises : samples.length * percent / 100 ≤ samples.length * percent' / 100 :=
    Nat.div_le_div_right (Nat.mul_le_mul_left _ le)
  rw [estimate, estimate']
  exact located.interpolate_le located' (by omega)

end

end

/-- The search for a percentile ends in one of the bins, that of the sample whose rank is the share
of the percentile, and fewer samples than the rank are in front of this bin. If the interpolation
does not round, the estimate lies between the bounds of the bin; so it is at most twice the sample,
and more than half of it, if the sample is in the range that the bins are made for. And the
percentiles of a summary never fall. -/
theorem percentiles_accurate {samples : List Nat} (some_sample : samples ≠ [])
    (few : samples.length * 99 < wordSize) :
    let h := ofSamples samples
    (∀ percent ≤ 99, ∃ x p,
      let k := max 1 (samples.length * percent / 100)
      let estimate := h.percentile .exact percent
      atRank samples k = some x ∧
      locate (rank h.count percent) 0 0 h.bins = some p ∧
      (∀ {α : Type} (num : Arithmetic α), h.percentile num percent = interpolate num p) ∧
      p.bin < binCount ∧ p.bin = bin x ∧ Located samples k p ∧
      lowerBound (bin x) ≤ estimate ∧ estimate ≤ lowerBound (bin x + 1) ∧
      (1 ≤ x → x < 10 ^ 10 → estimate ≤ 2 * x ∧ x < 2 * estimate)) ∧
    (h.summaryIn .exact).p50 ≤ (h.summaryIn .exact).p95 ∧
    (h.summaryIn .exact).p95 ≤ (h.summaryIn .exact).p99 := by
  have some : 0 < samples.length := List.length_pos_iff.mpr some_sample
  dsimp only
  refine ⟨fun percent part => ?_, ?_⟩
  · obtain ⟨p, found, inside, located, estimate⟩ := exists_place some_sample few part
    obtain ⟨-, most⟩ := rank_eq some few part
    obtain ⟨x, at_rank⟩ := exists_atRank (Nat.le_max_left 1 _) most
    have same : p.bin = bin x := located.bin_eq_of_atRank (Nat.le_max_left 1 _) at_rank
    obtain ⟨low, high⟩ := interpolate_exact_between located.reached
    rw [same, ← estimate] at low high
    refine ⟨x, p, at_rank, found, estimate, inside, same, located, low, high, fun one range => ?_⟩
    obtain ⟨least, greatest, double⟩ := bin_encloses one range
    omega
  · have counted : (ofSamples samples).count ≠ 0 := by
      rw [count_eq_length few]
      exact Nat.ne_of_gt some
    simp only [summaryIn, if_neg counted]
    exact ⟨percentile_mono some_sample few (by decide) (by decide),
      percentile_mono some_sample few (by decide) (by decide)⟩

/-- The fiftieth percentile of five samples is the second of them. It shares its bin with the third,
and the estimate is halfway through the bin. -/
theorem percentiles_accurate_of_five :
    let samples := [30, 5, 250, 31, 4000]
    let h := ofSamples samples
    atRank samples 2 = some 30 ∧ locate (rank h.count 50) 0 0 h.bins = some ⟨bin 30, 1, 2⟩ ∧
    h.percentile .exact 50 = 35 ∧
    (lowerBound (bin 30) ≤ 35 ∧ 35 ≤ lowerBound (bin 30 + 1)) ∧ (35 ≤ 2 * 30 ∧ 30 < 2 * 35) ∧
    (h.summaryIn .exact).p50 ≤ (h.summaryIn .exact).p95 ∧
    (h.summaryIn .exact).p95 ≤ (h.summaryIn .exact).p99 := by
  intro samples h
  have rank_two : max 1 (samples.length * 50 / 100) = 2 := by decide
  have second : atRank samples 2 = some 30 := by decide
  have place : locate (rank h.count 50) 0 0 h.bins = some ⟨bin 30, 1, 2⟩ := by decide +kernel
  have some_sample : samples ≠ [] := by decide
  obtain ⟨estimates, order⟩ := percentiles_accurate some_sample (by decide)
  obtain ⟨x, p, at_rank, found, estimate, -, -, -, low, high, near⟩ := estimates 50 (by decide)
  rw [rank_two] at at_rank
  cases second.symm.trans at_rank
  cases place.symm.trans found
  have halfway : h.percentile .exact 50 = 35 := by
    rw [estimate, interpolate_exact]
    decide +kernel
  rw [halfway] at low high near
  exact ⟨second, place, halfway, ⟨low, high⟩, near (by decide) (by decide), order⟩

/-- Numbers of double precision give the same here. -/
example : (ofSamples [30, 5, 250, 31, 4000]).percentile .double 50 = 35 := by decide +kernel

end ServiceDirectory.Histogram
