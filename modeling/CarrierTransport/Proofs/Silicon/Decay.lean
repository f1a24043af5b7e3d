import CarrierTransport.Proofs.Scalar.Extended
import CarrierTransport.Silicon.Decay

/-!
# Decay at a constant rate

A lifetime is the inverse of a rate, and it is infinite where the rate is zero.
Carriers that decay at a constant rate have no memory: however a time is cut
into timesteps, they survive it with the same probability.
-/

namespace CarrierTransport

open Extended (number)

/-! ## Probabilities -/

/-- The draws of `[0, 1)` for which the test succeeds are those below
`probability`. -/
structure FiresBelow (test : Extended → Bool) (probability : ℝ) : Prop where
  nonneg : 0 ≤ probability
  le_one : probability ≤ 1
  fires_iff : ∀ draw : ℝ, 0 ≤ draw → draw < 1 →
    (test (number draw) = true ↔ draw < probability)

namespace FiresBelow

variable {test : Extended → Bool} {p q : ℝ}

theorem le (hp : FiresBelow test p) (hq : FiresBelow test q) : p ≤ q := by
  by_contra hlt
  rw [not_le] at hlt
  -- A draw of `q` would succeed for `p` and fail for `q`.
  have hbelow := hlt.trans_le hp.le_one
  have hfires := (hp.fires_iff q hq.nonneg hbelow).mpr hlt
  exact lt_irrefl q ((hq.fires_iff q hq.nonneg hbelow).mp hfires)

theorem unique (hp : FiresBelow test p) (hq : FiresBelow test q) : p = q :=
  (hp.le hq).antisymm (hq.le hp)

end FiresBelow

/-- However a time is cut into timesteps, the probability to get through all of
them is that to get through the whole time at once. -/
def Memoryless (probability : ℝ → ℝ) : Prop :=
  ∀ timesteps : List ℝ, (∀ timestep ∈ timesteps, 0 ≤ timestep) →
    (timesteps.map (1 - probability ·)).prod = 1 - probability timesteps.sum

/-! ## Rates -/

/-- The part of the carriers that decay within a timestep. -/
noncomputable def decayShare (rate timestep : ℝ) : ℝ :=
  1 - Real.exp (-(rate * timestep))

/-- The inverse of a rate. -/
noncomputable def lifetimeOf (rate : ℝ) : Extended := number 1 / number rate

section Rates

variable {rate rate' timestep timestep' : ℝ}

theorem one_sub_decayShare (rate timestep : ℝ) :
    1 - decayShare rate timestep = Real.exp (-(rate * timestep)) :=
  sub_sub_cancel 1 _

theorem decayShare_le_one (rate timestep : ℝ) : decayShare rate timestep ≤ 1 :=
  sub_le_self 1 (Real.exp_pos _).le

theorem decayShare_nonneg (hrate : 0 ≤ rate) (htimestep : 0 ≤ timestep) :
    0 ≤ decayShare rate timestep := by
  have hexponent : -(rate * timestep) ≤ 0 :=
    neg_nonpos.mpr (mul_nonneg hrate htimestep)
  exact sub_nonneg.mpr (Real.exp_le_one_iff.mpr hexponent)

theorem decayShare_le (hrate : rate ≤ rate') (htimestep : timestep ≤ timestep')
    (hnonneg : 0 ≤ timestep) (hnonneg' : 0 ≤ rate') :
    decayShare rate timestep ≤ decayShare rate' timestep' := by
  apply sub_le_sub_left
  rw [Real.exp_le_exp, neg_le_neg_iff]
  exact mul_le_mul hrate htimestep hnonneg hnonneg'

/-- Two ways to decay compete without regard to each other. -/
theorem one_sub_decayShare_add (rate rate' timestep : ℝ) :
    1 - decayShare (rate + rate') timestep =
      (1 - decayShare rate timestep) * (1 - decayShare rate' timestep) := by
  simp only [one_sub_decayShare]
  rw [← Real.exp_add, add_mul, neg_add]

theorem prod_exp_mul (x : ℝ) (parts : List ℝ) :
    (parts.map fun part => Real.exp (x * part)).prod =
      Real.exp (x * parts.sum) := by
  calc (parts.map fun part => Real.exp (x * part)).prod
    _ = Real.exp (parts.map (x * ·)).sum := by
        rw [Real.exp_list_sum, List.map_map]
        rfl
    _ = Real.exp (x * parts.sum) := by rw [List.sum_map_mul_left, List.map_id']

theorem memoryless_decayShare (rate : ℝ) : Memoryless (decayShare rate) := by
  intro timesteps _
  simp only [one_sub_decayShare, ← neg_mul]
  exact prod_exp_mul (-rate) timesteps

theorem lifetimeOf_zero : lifetimeOf 0 = .infinite false := by
  simp [lifetimeOf, Extended.number_div_zero]

theorem lifetimeOf_of_ne (h : rate ≠ 0) :
    lifetimeOf rate = number (1 / rate) :=
  Extended.number_div h

theorem lifetimeOf_one_div (h : 0 < timestep) :
    lifetimeOf (1 / timestep) = number timestep := by
  rw [lifetimeOf_of_ne (one_div_pos.mpr h).ne', one_div_one_div]

/-- The higher the rate, the shorter the lifetime. -/
theorem lifetimeOf_le (hrate : 0 ≤ rate) (hle : rate ≤ rate') :
    lifetimeOf rate' ≤ lifetimeOf rate := by
  rcases hrate.eq_or_lt with rfl | hpos
  · rw [lifetimeOf_zero]
    rcases hle.eq_or_lt with rfl | hpos'
    · rw [lifetimeOf_zero]
      exact .inr rfl
    · rw [lifetimeOf_of_ne hpos'.ne']
      exact Extended.number_le_infinite
  · rw [lifetimeOf_of_ne hpos.ne', lifetimeOf_of_ne (hpos.trans_le hle).ne']
    exact one_div_le_one_div_of_le hpos hle

/-- The lifetime under two rates at once. -/
theorem lifetimeOf_add (hrate : 0 < rate) (hrate' : 0 ≤ rate') :
    number 1 / (number 1 / lifetimeOf rate + number 1 / lifetimeOf rate') =
      lifetimeOf (rate + rate') := by
  have hinverse {rate : ℝ} (h : 0 ≤ rate) :
      number 1 / lifetimeOf rate = number rate := by
    rcases h.eq_or_lt with rfl | hpos
    · rw [lifetimeOf_zero, Extended.number_div_infinite]
    · rw [lifetimeOf_of_ne hpos.ne',
        Extended.number_div (one_div_pos.mpr hpos).ne', one_div_one_div]
  rw [hinverse hrate.le, hinverse hrate', Extended.number_add]
  rfl

theorem decayProbability_lifetimeOf (rate timestep : ℝ) :
    decayProbability (number timestep) (lifetimeOf rate) =
      number (decayShare rate timestep) := by
  have hratio : -number timestep / lifetimeOf rate =
      number (-(rate * timestep)) := by
    rcases eq_or_ne rate 0 with rfl | hne
    · simp [lifetimeOf_zero]
    · rw [lifetimeOf_of_ne hne, Extended.number_neg,
        Extended.number_div (one_div_ne_zero hne)]
      congr 1
      field_simp
  rw [decayProbability, hratio]
  simp [decayShare]
  norm_num

end Rates

/-- The test decides by a draw whether a carrier decays within a timestep, and
carriers decay at this rate. -/
structure DecaysAt (test : Extended → Extended → Bool) (rate : ℝ) : Prop where
  rate_nonneg : 0 ≤ rate
  decays_iff : ∀ draw timestep : ℝ, 0 ≤ draw →
    (test (number draw) (number timestep) = true ↔
      draw < decayShare rate timestep)

namespace DecaysAt

variable {test test' : Extended → Extended → Bool} {rate rate' : ℝ}

theorem of_lifetime (h : 0 ≤ rate) :
    DecaysAt (decaysWithin · · (lifetimeOf rate)) rate where
  rate_nonneg := h
  decays_iff draw timestep _ := by
    simp [decaysWithin, decayProbability_lifetimeOf]

theorem never : DecaysAt (fun _ _ => false) 0 where
  rate_nonneg := le_rfl
  decays_iff draw timestep hdraw := by
    simpa [decayShare] using hdraw

theorem firesBelow (h : DecaysAt test rate) {timestep : ℝ}
    (htimestep : 0 ≤ timestep) :
    FiresBelow (test · (number timestep)) (decayShare rate timestep) where
  nonneg := decayShare_nonneg h.rate_nonneg htimestep
  le_one := decayShare_le_one rate timestep
  fires_iff draw hdraw _ := h.decays_iff draw timestep hdraw

/-- What decays at some rate decays at a higher one too, all the more with a
lower draw and in a longer timestep. -/
theorem mono (h : DecaysAt test rate) (h' : DecaysAt test' rate')
    (hrate : rate ≤ rate') {draw draw' timestep timestep' : ℝ}
    (hdraw : 0 ≤ draw') (hdraws : draw' ≤ draw) (htimestep : 0 ≤ timestep)
    (htimesteps : timestep ≤ timestep')
    (hdecays : test (number draw) (number timestep) = true) :
    test' (number draw') (number timestep') = true := by
  have hshare := decayShare_le hrate htimesteps htimestep h'.rate_nonneg
  rw [h.decays_iff draw timestep (hdraw.trans hdraws)] at hdecays
  rw [h'.decays_iff draw' timestep' hdraw]
  exact (hdraws.trans_lt hdecays).trans_le hshare

theorem memoryless (h : DecaysAt test rate) :
    ∃ probability : ℝ → ℝ, (∀ timestep, 0 ≤ timestep →
      FiresBelow (test · (number timestep)) (probability timestep)) ∧
      Memoryless probability :=
  ⟨decayShare rate, fun _ => h.firesBelow, memoryless_decayShare rate⟩

end DecaysAt

end CarrierTransport
