import CarrierTransport.Proofs.Silicon.Decay
import CarrierTransport.Silicon.Recombination

/-!
# Rates of recombination

Every model of recombination lets carriers decay at a rate that the temperature,
the carrier and the doping fix.  The two causes of recombination compete: where
both of them act, their rates add up.
-/

namespace CarrierTransport

open CarrierTransport.Units
open Extended (number)

theorem minorityCarrier_number (doping : ℝ) :
    minorityCarrier (number doping) = minorityCarrier doping := by
  simp only [minorityCarrier, gt_iff_lt, Extended.ofScientific_eq,
    Extended.number_lt_number]

/-! ## Lifetimes -/

namespace ShockleyReadHall

variable {temperature : ℝ}

theorem lifetimeReference_pos (temperature : ℝ) (carrier : Carrier) :
    0 < ((atTemperature temperature).lifetimeReference.get carrier : ℝ) := by
  have hs := s_pos
  cases carrier <;> simp only [atTemperature, PerCarrier.get] <;> positivity

theorem dopingReference_pos (temperature : ℝ) (carrier : Carrier) :
    0 < ((atTemperature temperature).dopingReference.get carrier : ℝ) := by
  have hperCm3 := perCm3_pos
  cases carrier <;> simp only [atTemperature, PerCarrier.get] <;> positivity

theorem temperatureScaling_pos (h : 0 < temperature) :
    0 < (atTemperature temperature).temperatureScaling :=
  Scalar.power_pos (div_pos (by norm_num) h) _

theorem shortening_pos (temperature : ℝ) (carrier : Carrier) (doping : ℝ) :
    0 < 1.0 + |doping| /
      (atTemperature temperature).dopingReference.get carrier := by
  have hreference := dopingReference_pos temperature carrier
  positivity

theorem lifetime_pos (h : 0 < temperature) (carrier : Carrier)
    (doping : ℝ) : 0 < (atTemperature temperature).lifetime carrier doping :=
  mul_pos
    (div_pos (lifetimeReference_pos temperature carrier)
      (shortening_pos temperature carrier doping))
    (temperatureScaling_pos h)

theorem lifetime_number (h : 0 < temperature) (carrier : Carrier)
    (doping : ℝ) :
    (atTemperature (number temperature)).lifetime carrier (number doping) =
      number ((atTemperature temperature).lifetime carrier doping) := by
  have hshortening := (shortening_pos temperature carrier doping).ne'
  have hreference := (dopingReference_pos temperature carrier).ne'
  have hreduced : 0 < 300.0 / temperature := div_pos (by norm_num) h
  have hscaling : (atTemperature (number temperature)).temperatureScaling =
      number (atTemperature temperature).temperatureScaling := by
    simp only [atTemperature, Extended.ofScientific_eq]
    rw [Extended.number_div h.ne', Extended.power_number hreduced]
    rfl
  have hlifetimes :
      (atTemperature (number temperature)).lifetimeReference.get carrier =
        number ((atTemperature temperature).lifetimeReference.get carrier) := by
    cases carrier <;> simp [atTemperature, PerCarrier.get]
  have hdopings :
      (atTemperature (number temperature)).dopingReference.get carrier =
        number ((atTemperature temperature).dopingReference.get carrier) := by
    cases carrier <;> simp [atTemperature, PerCarrier.get]
  unfold lifetime
  rw [hscaling, hlifetimes, hdopings, Extended.ofScientific_eq,
    Extended.abs_number, Extended.number_div hreference, Extended.number_add,
    Extended.number_div hshortening]
  rfl

/-- How fast carriers recombine over defects. -/
noncomputable def rate (temperature : ℝ) (carrier : Carrier) (doping : ℝ) : ℝ :=
  1 / (atTemperature temperature).lifetime carrier doping

theorem rate_pos (h : 0 < temperature) (carrier : Carrier) (doping : ℝ) :
    0 < rate temperature carrier doping :=
  one_div_pos.mpr (lifetime_pos h carrier doping)

theorem lifetime_eq (h : 0 < temperature) (carrier : Carrier) (doping : ℝ) :
    (atTemperature (number temperature)).lifetime carrier (number doping) =
      lifetimeOf (rate temperature carrier doping) := by
  rw [lifetime_number h, rate, lifetimeOf_one_div (lifetime_pos h _ _)]

end ShockleyReadHall

namespace Auger

/-- How fast minority carriers recombine in high doping. -/
noncomputable def rate (doping : ℝ) : ℝ :=
  standard.coefficient * doping * doping

theorem rate_nonneg (doping : ℝ) : 0 ≤ rate doping := by
  have hs := s_pos
  have hcm := cm_pos
  have hcoefficient : (0 : ℝ) ≤ standard.coefficient := by
    simp only [standard]
    positivity
  rw [rate, mul_assoc]
  exact mul_nonneg hcoefficient (mul_self_nonneg doping)

theorem lifetime_eq (doping : ℝ) :
    standard.lifetime (number doping) = lifetimeOf (rate doping) := by
  have hcoefficient : (standard : Auger Extended).coefficient =
      number standard.coefficient := by
    simp [standard, Extended.number_div s_pos.ne']
  rw [lifetime, hcoefficient, Extended.ofScientific_eq, decimal_one]
  rfl

/-- The rate for either carrier: the majority is not affected. -/
noncomputable def rateOf (carrier : Carrier) (doping : ℝ) : ℝ :=
  if minorityCarrier doping = carrier then rate doping else 0

theorem rateOf_nonneg (carrier : Carrier) (doping : ℝ) :
    0 ≤ rateOf carrier doping := by
  unfold rateOf
  split
  · exact rate_nonneg doping
  · exact le_rfl

end Auger

namespace ShockleyReadHallAuger

theorem lifetime_eq {temperature : ℝ} (h : 0 < temperature)
    (carrier : Carrier) (doping : ℝ) :
    lifetime ⟨.atTemperature (number temperature), .standard⟩ carrier
        (number doping) =
      lifetimeOf (ShockleyReadHall.rate temperature carrier doping +
        Auger.rateOf carrier doping) := by
  have hdefects := ShockleyReadHall.rate_pos h carrier doping
  unfold lifetime Auger.rateOf
  simp only [minorityCarrier_number, ShockleyReadHall.lifetime_eq h,
    Auger.lifetime_eq, Extended.ofScientific_eq, decimal_one]
  by_cases hminority : minorityCarrier doping = carrier
  · rw [if_neg (not_not.mpr hminority), if_pos hminority,
      lifetimeOf_add hdefects (Auger.rate_nonneg doping)]
  · rw [if_pos hminority, if_neg hminority, add_zero]

end ShockleyReadHallAuger

/-! ## Rates of the models -/

namespace Recombination

variable {temperature : ℝ}

theorem decaysAt_of_lifetime {m : Recombination Extended} {carrier : Carrier}
    {doping rate : ℝ} (hrate : 0 ≤ rate)
    (hlifetime : m.lifetime? carrier (number doping) = some (lifetimeOf rate))
    (haffects : m.affects carrier (number doping) = true) :
    DecaysAt (m.recombines carrier (number doping)) rate := by
  have htest : m.recombines carrier (number doping) =
      (decaysWithin · · (lifetimeOf rate)) := by
    funext draw timestep
    simp [recombines, hlifetime, haffects]
  rw [htest]
  exact .of_lifetime hrate

theorem decaysAt_of_not_affects {m : Recombination Extended}
    {carrier : Carrier} {doping : ℝ}
    (haffects : m.affects carrier (number doping) = false) :
    DecaysAt (m.recombines carrier (number doping)) 0 := by
  have htest : m.recombines carrier (number doping) = fun _ _ => false := by
    funext draw timestep
    unfold recombines
    cases m.lifetime? carrier (number doping) <;> simp [haffects]
  rw [htest]
  exact .never

theorem decaysAt_shockleyReadHall (h : 0 < temperature) (carrier : Carrier)
    (doping : ℝ) :
    DecaysAt
      ((shockleyReadHall (.atTemperature (number temperature))).recombines
        carrier (number doping))
      (ShockleyReadHall.rate temperature carrier doping) :=
  decaysAt_of_lifetime (ShockleyReadHall.rate_pos h carrier doping).le
    (congrArg some (ShockleyReadHall.lifetime_eq h carrier doping)) rfl

theorem decaysAt_auger (carrier : Carrier) (doping : ℝ) :
    DecaysAt ((auger .standard).recombines carrier (number doping))
      (Auger.rateOf carrier doping) := by
  have haffects : (auger (.standard : Auger Extended)).affects carrier
      (number doping) = (minorityCarrier doping == carrier) := by
    rw [affects, minorityCarrier_number]
  unfold Auger.rateOf
  by_cases hminority : minorityCarrier doping = carrier
  · rw [if_pos hminority]
    exact decaysAt_of_lifetime (Auger.rate_nonneg doping)
      (congrArg some (Auger.lifetime_eq doping)) (by simp [haffects, hminority])
  · rw [if_neg hminority]
    exact decaysAt_of_not_affects (by simp [haffects, hminority])

theorem decaysAt_combined (h : 0 < temperature) (carrier : Carrier)
    (doping : ℝ) :
    DecaysAt
      ((combined ⟨.atTemperature (number temperature), .standard⟩).recombines
        carrier (number doping))
      (ShockleyReadHall.rate temperature carrier doping +
        Auger.rateOf carrier doping) :=
  decaysAt_of_lifetime
    (add_nonneg (ShockleyReadHall.rate_pos h carrier doping).le
      (Auger.rateOf_nonneg carrier doping))
    (congrArg some (ShockleyReadHallAuger.lifetime_eq h carrier doping)) rfl

theorem decaysAt_constant {lifetime : PerCarrier Extended} {carrier : Carrier}
    {x : ℝ} (h : 0 < x) (hlifetime : lifetime.get carrier = number x)
    (doping : ℝ) :
    DecaysAt ((constant lifetime).recombines carrier (number doping))
      (1 / x) := by
  have hgiven : (constant lifetime).lifetime? carrier (number doping) =
      some (lifetimeOf (1 / x)) := by
    rw [lifetimeOf_one_div h, ← hlifetime]
    rfl
  exact decaysAt_of_lifetime (one_div_pos.mpr h).le hgiven rfl

/-- Every model lets carriers recombine at some rate. -/
theorem exists_decaysAt_of_select {name : String}
    {parameters : Parameters Extended} {hasDoping : Bool}
    {m : Recombination Extended} (h : 0 < temperature)
    (hbuilt : select name (number temperature) parameters hasDoping = .ok m)
    (carrier : Carrier) (doping : ℝ) :
    ∃ rate, DecaysAt (m.recombines carrier (number doping)) rate := by
  unfold select at hbuilt
  split at hbuilt
  case h_1 =>
    cases hbuilt
    exact ⟨0, .never⟩
  case h_2 =>
    obtain ⟨-, -, hbuilt⟩ := bind_eq_ok.mp hbuilt
    cases hbuilt
    exact ⟨_, decaysAt_shockleyReadHall h carrier doping⟩
  case h_3 =>
    obtain ⟨-, -, hbuilt⟩ := bind_eq_ok.mp hbuilt
    cases hbuilt
    exact ⟨_, decaysAt_auger carrier doping⟩
  case h_4 | h_5 =>
    obtain ⟨-, -, hbuilt⟩ := bind_eq_ok.mp hbuilt
    cases hbuilt
    exact ⟨_, decaysAt_combined h carrier doping⟩
  case h_6 =>
    obtain ⟨pair, hpair, hbuilt⟩ := bind_eq_ok.mp hbuilt
    cases hbuilt
    obtain ⟨x, hx, hlifetime⟩ :=
      Parameters.exists_pos_of_requirePair hpair carrier
    exact ⟨_, decaysAt_constant hx hlifetime doping⟩
  case h_7 => cases hbuilt

/-! ## Competition -/

/-- Carriers recombine by `both` as they would if the two causes, each on its
own, were in competition for the minority carrier. -/
structure Competes (first second both : Recombination Extended)
    (carrier : Carrier) (doping : ℝ) : Prop where
  recombines : ∀ draw timestep : ℝ, 0 ≤ draw → draw < 1 → 0 ≤ timestep →
    first.recombines carrier (number doping) (number draw)
        (number timestep) = true ∨
      second.recombines carrier (number doping) (number draw)
        (number timestep) = true →
    both.recombines carrier (number doping) (number draw)
      (number timestep) = true
  survival : minorityCarrier doping = carrier → ∀ timestep : ℝ, 0 ≤ timestep →
    ∃ p q r,
      FiresBelow (first.recombines carrier (number doping) ·
        (number timestep)) p ∧
      FiresBelow (second.recombines carrier (number doping) ·
        (number timestep)) q ∧
      FiresBelow (both.recombines carrier (number doping) ·
        (number timestep)) r ∧
      1 - r = (1 - p) * (1 - q)
  lifetime : minorityCarrier doping = carrier → ∃ s t u,
    first.lifetime? carrier (number doping) = some s ∧
    second.lifetime? carrier (number doping) = some t ∧
    both.lifetime? carrier (number doping) = some u ∧ u ≤ s ∧ u ≤ t
  majority : minorityCarrier doping ≠ carrier → ∀ draw timestep,
    both.recombines carrier (number doping) draw timestep =
      first.recombines carrier (number doping) draw timestep

theorem competes (h : 0 < temperature) (carrier : Carrier) (doping : ℝ) :
    Competes (shockleyReadHall (.atTemperature (number temperature)))
      (auger .standard)
      (combined ⟨.atTemperature (number temperature), .standard⟩) carrier
      doping := by
  have hdefects := decaysAt_shockleyReadHall h carrier doping
  have hauger := decaysAt_auger carrier doping
  have hboth := decaysAt_combined h carrier doping
  constructor
  case recombines =>
    intro draw timestep hdraw _ htimestep hfirst
    rcases hfirst with hfirst | hsecond
    · exact hdefects.mono hboth (le_add_of_nonneg_right hauger.rate_nonneg)
        hdraw le_rfl htimestep le_rfl hfirst
    · exact hauger.mono hboth (le_add_of_nonneg_left hdefects.rate_nonneg)
        hdraw le_rfl htimestep le_rfl hsecond
  case survival =>
    intro _ timestep htimestep
    exact ⟨_, _, _, hdefects.firesBelow htimestep, hauger.firesBelow htimestep,
      hboth.firesBelow htimestep, one_sub_decayShare_add _ _ timestep⟩
  case lifetime =>
    intro hminority
    refine ⟨_, _, _, rfl, rfl, rfl, ?_, ?_⟩
    · rw [ShockleyReadHallAuger.lifetime_eq h, ShockleyReadHall.lifetime_eq h]
      exact lifetimeOf_le hdefects.rate_nonneg
        (le_add_of_nonneg_right hauger.rate_nonneg)
    · rw [ShockleyReadHallAuger.lifetime_eq h, Auger.lifetime_eq,
        Auger.rateOf, if_pos hminority]
      exact lifetimeOf_le (Auger.rate_nonneg doping)
        (le_add_of_nonneg_left hdefects.rate_nonneg)
  case majority =>
    intro hmajority draw timestep
    unfold recombines lifetime? affects ShockleyReadHallAuger.lifetime
    simp [minorityCarrier_number, hmajority]

/-- In exact arithmetic the combined model is the competition of its two parts
at the temperature for which all three are selected. -/
theorem combined_is_competition {temperature : ℝ} (h : 0 < temperature)
    (parameters : Parameters Extended) :
    ∃ defects auger both,
      select "srh" (number temperature) parameters true = .ok defects ∧
      select "auger" (number temperature) parameters true = .ok auger ∧
      (∀ name ∈ ["srh_auger", "combined"],
        select name (number temperature) parameters true = .ok both) ∧
      ∀ carrier doping, Competes defects auger both carrier doping := by
  refine ⟨_, _, _, rfl, rfl, ?_, competes h⟩
  exact List.forall_mem_cons.mpr ⟨rfl, List.forall_mem_singleton.mpr rfl⟩

theorem combined_is_competition_room :
    (0 : ℝ) < 300 ∧
    ∃ defects auger both,
      select "srh" (number 300) .standard true = .ok defects ∧
      select "auger" (number 300) .standard true = .ok auger ∧
      select "combined" (number 300) .standard true = .ok both ∧
      Competes defects auger both .hole 1e16 ∧
      Competes defects auger both .electron 0 := by
  have hroom : (0 : ℝ) < 300 := by norm_num
  obtain ⟨defects, auger, both, hdefects, hauger, hboth, hcompetes⟩ :=
    combined_is_competition hroom .standard
  exact ⟨hroom, defects, auger, both, hdefects, hauger,
    hboth "combined" (by simp), hcompetes .hole 1e16, hcompetes .electron 0⟩

end Recombination

end CarrierTransport
