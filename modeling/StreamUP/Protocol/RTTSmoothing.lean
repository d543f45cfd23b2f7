import StreamUP.Foundation.Smoothing
import StreamUP.Protocol.RTTEstimator

/-! Whether the estimator smooths its samples, along any list of them. -/

namespace StreamUP

open Smoothing

namespace DefaultRTTEstimator

/--
The estimate smooths the samples.

After each of them it is the weighted average, so it stays where the samples are, and so does the
variance.
-/
structure SmoothsSamples (start : DefaultRTTEstimator) (samples : List ℚ) : Prop where
  average : ∀ before, before <+: samples →
    (before.foldl addSampleImpl start).rtt = weightedAverage start.alpha start.rtt before
  within : ∀ low high, start.rtt ∈ Set.Icc low high →
    (∀ sample ∈ samples, sample ∈ Set.Icc low high) → ∀ before, before <+: samples →
      (before.foldl addSampleImpl start).rtt ∈ Set.Icc low high ∧
        (before.foldl addSampleImpl start).variance
          ∈ Set.Icc 0 (max start.variance (high - low))

/-- A sample moves the weight of the estimate, and not the estimate, towards itself. -/
theorem rtt_addSampleImpl (self : DefaultRTTEstimator) (sampleRtt : ℚ) :
    (self.addSampleImpl sampleRtt).rtt = smooth self.alpha self.alpha sampleRtt := rfl

/-- A sample moves the variance towards its deviation from the estimate. -/
theorem variance_addSampleImpl (self : DefaultRTTEstimator) (sampleRtt : ℚ) :
    (self.addSampleImpl sampleRtt).variance
      = smooth self.beta self.variance |sampleRtt - self.rtt| := rfl

/-- No samples change a weight. -/
theorem weights_foldl (start : DefaultRTTEstimator) (samples : List ℚ) :
    (samples.foldl addSampleImpl start).alpha = start.alpha ∧
      (samples.foldl addSampleImpl start).beta = start.beta := by
  -- The induction follows the list, and each sample keeps both.
  induction samples generalizing start with
  | nil => exact ⟨rfl, rfl⟩
  | cons sample samples ih => exact ih (start.addSampleImpl sample)

/-- The estimate after a sample depends on no earlier one. -/
theorem rtt_foldl_concat (start : DefaultRTTEstimator) (samples : List ℚ) (last : ℚ) :
    ((samples ++ [last]).foldl addSampleImpl start).rtt
      = smooth start.alpha start.alpha last := by
  -- What the last sample is smoothed with is the weight.
  rw [List.foldl_concat, rtt_addSampleImpl, (weights_foldl start samples).1]

/-- Smoothing two values with one sample gives the same only with full weight or for the same. -/
theorem smooth_eq_smooth_iff {weight value other sample : ℚ} :
    smooth weight value sample = smooth weight other sample ↔ weight = 1 ∨ other = value := by
  -- The difference is that of the values, lessened by the weight.
  have difference : smooth weight value sample - smooth weight other sample
      = (1 - weight) * (value - other) := by
    simp only [smooth]
    ring
  rw [← sub_eq_zero, difference, mul_eq_zero, sub_eq_zero, sub_eq_zero, eq_comm (a := value),
    eq_comm (a := (1 : ℚ))]

/-- After one more sample the estimate is the average exactly when the weight was it before. -/
theorem rtt_concat_iff (start : DefaultRTTEstimator) (samples : List ℚ) (last : ℚ) :
    ((samples ++ [last]).foldl addSampleImpl start).rtt
        = weightedAverage start.alpha start.rtt (samples ++ [last]) ↔
      start.alpha = 1 ∨ smoothed start.alpha start.rtt samples = start.alpha := by
  -- The estimate moves from the weight, and the average from the average before.
  rw [rtt_foldl_concat, weightedAverage_concat, ← smoothed_eq_weightedAverage,
    smooth_eq_smooth_iff]

/-- A part at the front of a list that is not all of it is followed by some element. -/
theorem exists_front_concat {before rest : List ℚ} (last : ℚ) (part : before <+: rest) :
    ∃ next, before ++ [next] <+: rest ++ [last] := by
  obtain ⟨after, rfl⟩ := part
  cases after with
  | nil => exact ⟨last, by simp⟩
  | cons next after => exact ⟨next, after ++ [last], by simp⟩

/-- A part at the front of a list that ends with another element leaves that element out. -/
theorem front_of_front_concat {before rest : List ℚ} {next last : ℚ}
    (part : before ++ [next] <+: rest ++ [last]) : before <+: rest := by
  rcases List.prefix_concat_iff.mp part with whole | proper
  · exact (List.append_inj_left' whole rfl) ▸ List.prefix_refl before
  · exact (List.prefix_append before [next]).trans proper

/--
The estimate is the weighted average all along exactly when smoothing moves nothing.

Before the last sample the average has to be the weight itself, unless the weight is full.
-/
theorem average_iff (start : DefaultRTTEstimator) (samples : List ℚ) :
    (∀ before, before <+: samples →
        (before.foldl addSampleImpl start).rtt = weightedAverage start.alpha start.rtt before) ↔
      samples = [] ∨ start.alpha = 1 ∨ start.rtt = start.alpha ∧
        (start.alpha = 0 ∨ ∀ sample ∈ samples.dropLast, sample = start.alpha) := by
  have empty : start.rtt = weightedAverage start.alpha start.rtt [] := by
    simp [weightedAverage]
  cases samples using List.reverseRecOn with
  | nil => simpa using empty
  | append_singleton rest last =>
    have some : rest ++ [last] ≠ [] := by simp
    rw [List.dropLast_concat, or_iff_right some, ← smoothed_constant_iff]
    constructor
    · intro each
      rw [or_iff_not_imp_left]
      intro partly before part
      -- The sample that follows shows what the average has been before it.
      obtain ⟨next, longer⟩ := exists_front_concat last part
      exact ((rtt_concat_iff start before next).mp (each _ longer)).resolve_left partly
    · intro constant before part
      cases before using List.reverseRecOn with
      | nil => exact empty
      | append_singleton before next =>
        refine (rtt_concat_iff start before next).mpr (constant.imp_right fun each => ?_)
        exact each before (front_of_front_concat part)

/-- While the estimate stays where the samples are, so does the variance. -/
theorem variance_mem_Icc {start : DefaultRTTEstimator} {samples : List ℚ} {low high : ℚ}
    (beta_nonneg : 0 ≤ start.beta) (beta_small : start.beta ≤ 1) (positive : 0 ≤ start.variance)
    (each : ∀ sample ∈ samples, sample ∈ Set.Icc low high)
    (estimates : ∀ before, before <+: samples →
      (before.foldl addSampleImpl start).rtt ∈ Set.Icc low high) :
    (samples.foldl addSampleImpl start).variance
      ∈ Set.Icc 0 (max start.variance (high - low)) := by
  -- The induction is on the end of the list, where the newest deviation is.
  induction samples using List.reverseRecOn with
  | nil => exact ⟨positive, le_max_left _ _⟩
  | append_singleton samples last ih =>
    rw [List.forall_mem_append, List.forall_mem_singleton] at each
    have shorter : samples <+: samples ++ [last] := List.prefix_append samples [last]
    have earlier := ih each.1 fun before part => estimates before (part.trans shorter)
    obtain ⟨estimate_low, estimate_high⟩ := estimates samples shorter
    obtain ⟨last_low, last_high⟩ := each.2
    have deviation : |last - (samples.foldl addSampleImpl start).rtt|
        ∈ Set.Icc 0 (max start.variance (high - low)) := by
      refine ⟨abs_nonneg _, le_max_of_le_right (abs_le.mpr ⟨?_, ?_⟩)⟩
      · linarith
      · linarith
    rw [List.foldl_concat, variance_addSampleImpl, (weights_foldl start samples).2]
    exact smooth_mem_Icc beta_nonneg beta_small earlier deviation

/--
A new estimator smooths its samples exactly when smoothing would move nothing.

There are no samples, or the weight is full, or all but the last sample are the weight.
-/
theorem smoothsSamples_iff {initialRtt alpha initialVariance beta : ℚ}
    (alpha_nonneg : 0 ≤ alpha) (alpha_small : alpha ≤ 1) (beta_nonneg : 0 ≤ beta)
    (beta_small : beta ≤ 1) (positive : 0 ≤ initialVariance) (samples : List ℚ) :
    SmoothsSamples (new initialRtt alpha initialVariance beta) samples ↔
      samples = [] ∨ alpha = 1 ∨
        initialRtt = alpha ∧ (alpha = 0 ∨ ∀ sample ∈ samples.dropLast, sample = alpha) := by
  constructor
  · intro smooths
    exact (average_iff (new initialRtt alpha initialVariance beta) samples).mp smooths.average
  · intro still
    have average := (average_iff (new initialRtt alpha initialVariance beta) samples).mpr still
    refine ⟨average, ?_⟩
    intro low high start_mem each before part
    have inside : ∀ sample ∈ before, sample ∈ Set.Icc low high :=
      fun sample member => each sample (part.subset member)
    -- An average of what is between the bounds is between them.
    have estimates : ∀ earlier, earlier <+: before →
        (earlier.foldl addSampleImpl (new initialRtt alpha initialVariance beta)).rtt
          ∈ Set.Icc low high := by
      intro earlier shorter
      rw [average earlier (shorter.trans part), ← smoothed_eq_weightedAverage]
      exact smoothed_mem_Icc alpha_nonneg alpha_small start_mem
        fun sample member => inside sample (shorter.subset member)
    exact ⟨estimates before (List.prefix_refl before),
      variance_mem_Icc beta_nonneg beta_small positive inside estimates⟩

/-- With full weights the estimate is the last sample, which is what smoothing leads to. -/
theorem fullWeight_smooths : SmoothsSamples (new 2 1 1 1) [3, 5] :=
  (smoothsSamples_iff (by norm_num) (by norm_num) (by norm_num) (by norm_num) (by norm_num)
    [3, 5]).mpr (.inr (.inl rfl))

/-- With the default arguments a sample that equals the estimate moves it away. -/
theorem default_not_smooths : ¬ SmoothsSamples default [2] := by
  -- The estimate leaves the interval from two to two.
  intro smooths
  have low := (smooths.within 2 2 (by simp [default, new]) (by simp) [2]
    (List.prefix_refl [2])).1.1
  norm_num [default, new, addSampleImpl] at low

end DefaultRTTEstimator

end StreamUP
