import CarrierTransport.Proofs.Scalar.Real
import CarrierTransport.Silicon.Decay
import CarrierTransport.Silicon.Detrapping

/-!
# Delays of releases

The delay of a release is sampled by inverting the exponential distribution that
tests of decay compare their draws with, so it is shorter than a time exactly if
the same draw would make a carrier decay within that time.
-/

namespace CarrierTransport

theorem decaysWithin_iff {draw timestep lifetime : ℝ} :
    decaysWithin draw timestep lifetime = true ↔
      draw < 1 - Real.exp (-timestep / lifetime) := by
  rw [decaysWithin, decayProbability, decide_eq_true_iff, decimal_one]
  rfl

/-- The delays of the draws in `[0, 1)` are distributed as decays with this
lifetime are. -/
structure SamplesDecay (delay : ℝ → ℝ) (lifetime : ℝ) : Prop where
  nonneg : ∀ draw ∈ Set.Ico (0 : ℝ) 1, 0 ≤ delay draw
  mono : MonotoneOn delay (Set.Ico 0 1)
  lt_iff : ∀ draw ∈ Set.Ico (0 : ℝ) 1, ∀ duration,
    delay draw < duration ↔ decaysWithin draw duration lifetime = true

namespace Detrapping

/-- The time for which `draw` holds a carrier, if `mean` is the mean time. -/
noncomputable def delayOf (mean draw : ℝ) : ℝ := -Real.log (1 - draw) * mean

theorem delay?_some (means : PerCarrier ℝ) (carrier : Carrier) (draw : ℝ) :
    (⟨some means⟩ : Detrapping ℝ).delay? carrier draw =
      some (delayOf (means.get carrier) draw) := by
  rw [delay?, delayOf, ← decimal_one]
  rfl

/-- A draw of one half samples the median. -/
theorem delayOf_half (mean : ℝ) : delayOf mean (1 / 2) = Real.log 2 * mean := by
  rw [delayOf, sub_half, one_div, Real.log_inv, neg_neg]

section Mean

variable {mean : ℝ} (hmean : 0 < mean)
include hmean

theorem delayOf_monotoneOn : MonotoneOn (delayOf mean) (Set.Ico 0 1) := by
  intro draw _ later hlater hle
  have hrest : 0 < 1 - later := sub_pos.mpr hlater.2
  have hlog : Real.log (1 - later) ≤ Real.log (1 - draw) :=
    Real.log_le_log hrest (sub_le_sub_left hle 1)
  exact mul_le_mul_of_nonneg_right (neg_le_neg hlog) hmean.le

theorem delayOf_nonneg {draw : ℝ} (hdraw : draw ∈ Set.Ico (0 : ℝ) 1) :
    0 ≤ delayOf mean draw := by
  have hzero : delayOf mean 0 = 0 := by simp [delayOf]
  rw [← hzero]
  exact delayOf_monotoneOn hmean (by simp) hdraw hdraw.1

theorem delayOf_lt_iff {draw : ℝ} (hdraw : draw < 1) (duration : ℝ) :
    delayOf mean draw < duration ↔
      draw < 1 - Real.exp (-duration / mean) := by
  have hrest : 0 < 1 - draw := sub_pos.mpr hdraw
  calc -Real.log (1 - draw) * mean < duration
    _ ↔ -Real.log (1 - draw) < duration / mean := (lt_div_iff₀ hmean).symm
    _ ↔ -duration / mean < Real.log (1 - draw) := by rw [neg_lt, neg_div]
    _ ↔ Real.exp (-duration / mean) < 1 - draw := Real.lt_log_iff_exp_lt hrest
    _ ↔ draw < 1 - Real.exp (-duration / mean) := lt_sub_comm

theorem samplesDecay_delayOf : SamplesDecay (delayOf mean) mean where
  nonneg _ hdraw := delayOf_nonneg hmean hdraw
  mono := delayOf_monotoneOn hmean
  lt_iff _ hdraw duration :=
    (delayOf_lt_iff hmean hdraw.2 duration).trans decaysWithin_iff.symm

end Mean

/-- A release is never before its capture. -/
theorem delay?_nonneg {m : Detrapping ℝ} {carrier : Carrier}
    (hmean : ∀ means, m.mean = some means → 0 < means.get carrier)
    {draw delay : ℝ} (hdraw : draw ∈ Set.Ico (0 : ℝ) 1)
    (h : m.delay? carrier draw = some delay) : 0 ≤ delay := by
  obtain ⟨means, hsome, rfl⟩ := Option.map_eq_some_iff.mp h
  rw [decimal_one]
  exact delayOf_nonneg (hmean means hsome) hdraw

theorem mean_pos {name : String} {parameters : Parameters ℝ}
    {m : Detrapping ℝ} (h : select name parameters = .ok m)
    {mean : PerCarrier ℝ} (hmean : m.mean = some mean) (carrier : Carrier) :
    0 < mean.get carrier := by
  unfold select at h
  split at h
  · cases h
    cases hmean
  · obtain ⟨pair, hpair, h⟩ := bind_eq_ok.mp h
    cases h
    cases hmean
    exact Parameters.pos_of_requirePair hpair carrier
  · cases h

end Detrapping

end CarrierTransport
