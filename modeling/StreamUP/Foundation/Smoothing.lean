import Mathlib.Algebra.BigOperators.Group.Finset.Basic
import Mathlib.Algebra.BigOperators.Ring.Finset
import Mathlib.Algebra.Order.Field.Basic
import Mathlib.Data.List.GetD
import Mathlib.Data.List.Induction
import Mathlib.Order.Interval.Set.Basic
import Mathlib.Tactic.Linarith
import Mathlib.Tactic.Ring

/-! Exponential smoothing: moving a value towards one sample after the other by a weight. -/

namespace Smoothing

open Finset

variable {K : Type} [Field K]

/-- A value moved towards a sample by a weight. -/
def smooth (weight value sample : K) : K := (1 - weight) * value + weight * sample

/-- A value moved towards each sample of a list in turn. -/
def smoothed (weight start : K) (samples : List K) : K := samples.foldl (smooth weight) start

/-- The average in which each sample has the weight, lessened by every sample that follows it. -/
def weightedAverage (weight start : K) (samples : List K) : K :=
  (1 - weight) ^ samples.length * start
    + ∑ i ∈ range samples.length,
        weight * (1 - weight) ^ (samples.length - (i + 1)) * samples.getD i 0

@[simp] theorem smoothed_nil (weight start : K) : smoothed weight start [] = start := rfl

@[simp] theorem smoothed_concat (weight start : K) (samples : List K) (last : K) :
    smoothed weight start (samples ++ [last])
      = smooth weight (smoothed weight start samples) last :=
  List.foldl_concat ..

/-- One more sample lessens the weights of all the others and adds its own. -/
theorem weightedAverage_concat (weight start : K) (samples : List K) (last : K) :
    weightedAverage weight start (samples ++ [last])
      = smooth weight (weightedAverage weight start samples) last := by
  have newest : (samples ++ [last]).getD samples.length 0 = last := by
    simp [List.getD_eq_getElem?_getD]
  -- Each of the older samples has one more sample behind it.
  have older : ∀ i ∈ range samples.length,
      weight * (1 - weight) ^ (samples.length + 1 - (i + 1)) * (samples ++ [last]).getD i 0
        = (1 - weight)
            * (weight * (1 - weight) ^ (samples.length - (i + 1)) * samples.getD i 0) := by
    intro i member
    have inside : i < samples.length := mem_range.mp member
    have place : samples.length + 1 - (i + 1) = samples.length - (i + 1) + 1 := by omega
    rw [place, pow_succ, List.getD_append _ _ _ _ inside]
    ring
  simp only [weightedAverage, smooth, List.length_append, List.length_singleton, sum_range_succ,
    newest, Nat.sub_self, pow_zero, mul_one]
  rw [sum_congr rfl older, ← mul_sum, pow_succ]
  ring

/-- Smoothing computes the weighted average. -/
theorem smoothed_eq_weightedAverage (weight start : K) (samples : List K) :
    smoothed weight start samples = weightedAverage weight start samples := by
  -- The induction is on the end of the list, where the newest sample is.
  induction samples using List.reverseRecOn with
  | nil => simp [weightedAverage]
  | append_singleton samples last ih => rw [smoothed_concat, weightedAverage_concat, ih]

/-- Moving a value towards a sample leaves it where it was only without a weight or a distance. -/
theorem smooth_eq_self_iff {weight value sample : K} :
    smooth weight value sample = value ↔ weight = 0 ∨ sample = value := by
  -- The move is the weight times the distance.
  have move : smooth weight value sample - value = weight * (sample - value) := by
    simp only [smooth]
    ring
  rw [← sub_eq_zero, move, mul_eq_zero, sub_eq_zero]

/-- A smoothed value is constant exactly when it starts so and no sample moves it. -/
theorem smoothed_constant_iff {weight start constant : K} {samples : List K} :
    (∀ before, before <+: samples → smoothed weight start before = constant) ↔
      start = constant ∧ (weight = 0 ∨ ∀ sample ∈ samples, sample = constant) := by
  induction samples generalizing start with
  | nil => simp
  | cons sample samples ih =>
    -- A prefix is empty, or it begins with the first sample.
    have prefixes : (∀ before, before <+: sample :: samples →
        smoothed weight start before = constant) ↔
        start = constant ∧ ∀ before, before <+: samples →
          smoothed weight (smooth weight start sample) before = constant := by
      simp only [List.prefix_cons_iff, or_imp, forall_and, forall_eq, smoothed_nil]
      refine and_congr_right fun _ => ?_
      constructor
      · intro each before within
        exact each (sample :: before) ⟨before, rfl, within⟩
      · intro each whole split
        obtain ⟨before, rfl, within⟩ := split
        exact each before within
    rw [prefixes, ih]
    refine and_congr_right fun same => ?_
    rw [same, smooth_eq_self_iff, List.forall_mem_cons]
    tauto

variable [LinearOrder K] [IsStrictOrderedRing K]

/-- Between two bounds, a value moved towards a sample stays between them. -/
theorem smooth_mem_Icc {weight value sample low high : K} (nonneg : 0 ≤ weight)
    (small : weight ≤ 1) (value_mem : value ∈ Set.Icc low high)
    (sample_mem : sample ∈ Set.Icc low high) :
    smooth weight value sample ∈ Set.Icc low high := by
  -- Each bound is the same average of itself with itself.
  have rest : 0 ≤ 1 - weight := sub_nonneg.mpr small
  have bound : ∀ edge : K, edge = (1 - weight) * edge + weight * edge := by
    intro edge
    ring
  constructor
  · calc low = (1 - weight) * low + weight * low := bound low
      _ ≤ (1 - weight) * value + weight * sample :=
        add_le_add (mul_le_mul_of_nonneg_left value_mem.1 rest)
          (mul_le_mul_of_nonneg_left sample_mem.1 nonneg)
  · calc (1 - weight) * value + weight * sample
        ≤ (1 - weight) * high + weight * high :=
          add_le_add (mul_le_mul_of_nonneg_left value_mem.2 rest)
            (mul_le_mul_of_nonneg_left sample_mem.2 nonneg)
      _ = high := (bound high).symm

/-- A value smoothed with samples between two bounds stays between them. -/
theorem smoothed_mem_Icc {weight start low high : K} {samples : List K} (nonneg : 0 ≤ weight)
    (small : weight ≤ 1) (start_mem : start ∈ Set.Icc low high)
    (each : ∀ sample ∈ samples, sample ∈ Set.Icc low high) :
    smoothed weight start samples ∈ Set.Icc low high := by
  -- The induction follows the list, and each sample moves the start.
  induction samples generalizing start with
  | nil => exact start_mem
  | cons sample samples ih =>
    rw [List.forall_mem_cons] at each
    exact ih (smooth_mem_Icc nonneg small start_mem each.1) each.2

end Smoothing
