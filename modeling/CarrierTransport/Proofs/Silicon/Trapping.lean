import CarrierTransport.Proofs.Silicon.Decay
import CarrierTransport.Silicon.Trapping

/-!
# Rates of trapping

Every model of trapping captures carriers at a rate that is fixed when the model
is built.  For radiation damage the rate is linear in the fluence, so heavier
irradiation only captures more.
-/

namespace CarrierTransport

open CarrierTransport.Units
open Extended (number)

/-- How fast carriers are captured: a damage constant in cm²/ns times the
fluence, and an offset in 1/ns. -/
noncomputable def damageRate (beta offset fluence : ℝ) : ℝ :=
  offset / ns + beta * cm * cm / ns * fluence

section DamageRate

variable {beta offset fluence heavier : ℝ}

theorem ns_pos : (0 : ℝ) < ns := by norm_num [ns]

theorem damageRate_zero (beta offset : ℝ) :
    damageRate beta offset 0 = offset / ns := by
  rw [damageRate, mul_zero, add_zero]

theorem damageRate_le (hbeta : 0 ≤ beta) (h : fluence ≤ heavier) :
    damageRate beta offset fluence ≤ damageRate beta offset heavier := by
  have hcm := cm_pos
  have hns := ns_pos
  unfold damageRate
  gcongr

theorem damageRate_nonneg (hbeta : 0 ≤ beta) (hoffset : 0 ≤ offset)
    (h : 0 ≤ fluence) : 0 ≤ damageRate beta offset fluence := by
  calc 0 ≤ offset / ns := div_nonneg hoffset ns_pos.le
    _ = damageRate beta offset 0 := (damageRate_zero beta offset).symm
    _ ≤ damageRate beta offset fluence := damageRate_le hbeta h

theorem effectiveTrappingTime_eq (beta offset fluence : ℝ) :
    effectiveTrappingTime (number beta) (number offset) (number fluence) =
      lifetimeOf (damageRate beta offset fluence) := by
  have hns := ns_pos.ne'
  simp [effectiveTrappingTime, Extended.number_div hns, decimal_one]
  rfl

end DamageRate

/-- What a fluence damages: a constant in cm²/ns and an offset in 1/ns for each
carrier. -/
structure Damage where
  beta : PerCarrier ℝ
  offset : PerCarrier ℝ
  beta_pos : ∀ carrier, 0 < beta.get carrier
  offset_nonneg : ∀ carrier, 0 ≤ offset.get carrier

namespace Damage

noncomputable def ljubljana {temperature : ℝ} (h : 0 < temperature) :
    Damage where
  beta :=
    ⟨5.6e-16 * Scalar.power (temperature / 263.0) (-0.86),
      7.7e-16 * Scalar.power (temperature / 263.0) (-1.52)⟩
  offset := ⟨0.0, 0.0⟩
  beta_pos carrier := by
    have hreduced : 0 < temperature / 263.0 := div_pos h (by norm_num)
    cases carrier <;>
      exact mul_pos (by norm_num) (Scalar.power_pos hreduced _)
  offset_nonneg carrier := by cases carrier <;> norm_num [PerCarrier.get]

noncomputable def dortmund : Damage where
  beta := ⟨5.13e-16, 5.04e-16⟩
  offset := ⟨0.0, 0.0⟩
  beta_pos carrier := by cases carrier <;> norm_num [PerCarrier.get]
  offset_nonneg carrier := by cases carrier <;> norm_num [PerCarrier.get]

noncomputable def cmsTracker : Damage where
  beta := ⟨1.71e-16, 2.79e-16⟩
  offset := ⟨0.114, 0.093⟩
  beta_pos carrier := by cases carrier <;> norm_num [PerCarrier.get]
  offset_nonneg carrier := by cases carrier <;> norm_num [PerCarrier.get]

theorem map_ljubljana {temperature : ℝ} (h : 0 < temperature) :
    (ljubljana h).beta.map number =
      ⟨5.6e-16 * Scalar.power (number temperature / 263.0) (-0.86),
        7.7e-16 * Scalar.power (number temperature / 263.0) (-1.52)⟩ := by
  have hreference : (263.0 : ℝ) ≠ 0 := by norm_num
  have hreduced : 0 < temperature / 263.0 := div_pos h (by norm_num)
  simp only [Extended.ofScientific_eq, Extended.number_neg,
    Extended.number_div hreference, Extended.power_number hreduced]
  rfl

noncomputable def rate (d : Damage) (carrier : Carrier) (fluence : ℝ) : ℝ :=
  damageRate (d.beta.get carrier) (d.offset.get carrier) fluence

theorem rate_le (d : Damage) (carrier : Carrier) {light heavy : ℝ}
    (h : light ≤ heavy) : d.rate carrier light ≤ d.rate carrier heavy :=
  damageRate_le (d.beta_pos carrier).le h

theorem rate_nonneg (d : Damage) (carrier : Carrier) {fluence : ℝ}
    (h : 0 ≤ fluence) : 0 ≤ d.rate carrier fluence :=
  damageRate_nonneg (d.beta_pos carrier).le (d.offset_nonneg carrier) h

noncomputable def trapping (d : Damage) (fluence : Extended) :
    Trapping Extended :=
  .ofDamage (d.beta.map number) (d.offset.map number) fluence

theorem decaysAt (d : Damage) (carrier : Carrier) {fluence : ℝ}
    (h : 0 ≤ fluence) :
    DecaysAt ((d.trapping (number fluence)).captures carrier)
      (d.rate carrier fluence) := by
  have htest : (d.trapping (number fluence)).captures carrier =
      (decaysWithin · · (lifetimeOf (d.rate carrier fluence))) := by
    funext draw timestep
    rw [rate, ← effectiveTrappingTime_eq]
    cases carrier <;> rfl
  rw [htest]
  exact .of_lifetime (d.rate_nonneg carrier h)

end Damage

def Parameters.withFluence {α : Type} (parameters : Parameters α)
    (fluence : α) : Parameters α :=
  { parameters with fluence := some fluence }

namespace Trapping

variable {name : String} {temperature : ℝ}

def damageModels : List String :=
  ["ljubljana", "kramberger", "dortmund", "krasel", "cmstracker"]

/-- What captures carriers without irradiation, in 1/ns. -/
noncomputable def offsets (name : String) : PerCarrier ℝ :=
  if name = "cmstracker" then ⟨0.114, 0.093⟩ else ⟨0.0, 0.0⟩

theorem exists_damage (hname : name ∈ damageModels) (h : 0 < temperature) :
    ∃ d : Damage, d.offset = offsets name ∧
      ∀ parameters, select name (number temperature) parameters =
        d.trapping <$> Parameters.requireFluence name parameters.fluence := by
  simp only [damageModels, List.mem_cons, List.not_mem_nil, or_false] at hname
  rcases hname with rfl | rfl | rfl | rfl | rfl
  case inl | inr.inl =>
    refine ⟨.ljubljana h, rfl, fun parameters => ?_⟩
    unfold Damage.trapping
    rw [Damage.map_ljubljana h]
    rfl
  case inr.inr.inl | inr.inr.inr.inl =>
    exact ⟨.dortmund, rfl, fun parameters => rfl⟩
  case inr.inr.inr.inr =>
    exact ⟨.cmsTracker, rfl, fun parameters => rfl⟩

theorem select_withFluence {d : Damage} {parameters : Parameters Extended}
    (hselect : ∀ parameters, select name (number temperature) parameters =
      d.trapping <$> Parameters.requireFluence name parameters.fluence)
    {fluence : ℝ} (hfluence : 0 ≤ fluence) :
    select name (number temperature)
        (parameters.withFluence (number fluence)) =
      .ok (d.trapping (number fluence)) := by
  rw [hselect]
  exact congrArg (d.trapping <$> ·)
    (Parameters.requireFluence_number hfluence)

theorem decaysAt_constant {times : PerCarrier Extended} {carrier : Carrier}
    {x : ℝ} (h : 0 < x) (htime : times.get carrier = number x) :
    DecaysAt ((⟨some times⟩ : Trapping Extended).captures carrier)
      (1 / x) := by
  have htest : (⟨some times⟩ : Trapping Extended).captures carrier =
      (decaysWithin · · (lifetimeOf (1 / x))) := by
    rw [lifetimeOf_one_div h, ← htime]
    rfl
  rw [htest]
  exact .of_lifetime (one_div_pos.mpr h).le

/-- Every model captures carriers at some rate. -/
theorem exists_decaysAt_of_select {parameters : Parameters Extended}
    {m : Trapping Extended} (h : 0 < temperature)
    (hbuilt : select name (number temperature) parameters = .ok m)
    (carrier : Carrier) : ∃ rate, DecaysAt (m.captures carrier) rate := by
  by_cases hname : name ∈ damageModels
  · obtain ⟨d, -, hselect⟩ := exists_damage hname h
    rw [hselect] at hbuilt
    cases hfluence : Parameters.requireFluence name parameters.fluence with
    | error e =>
        rw [hfluence] at hbuilt
        cases hbuilt
    | ok value =>
        rw [hfluence] at hbuilt
        cases hbuilt
        obtain ⟨fluence, hnonneg, rfl⟩ :=
          Parameters.exists_nonneg_of_requireFluence hfluence
        exact ⟨_, d.decaysAt carrier hnonneg⟩
  · unfold select at hbuilt
    split at hbuilt
    case h_1 =>
      cases hbuilt
      exact ⟨0, .never⟩
    case h_2 =>
      obtain ⟨pair, hpair, hbuilt⟩ := bind_eq_ok.mp hbuilt
      cases hbuilt
      obtain ⟨x, hx, htime⟩ :=
        Parameters.exists_pos_of_requirePair hpair carrier
      exact ⟨_, decaysAt_constant hx htime⟩
    case h_8 => cases hbuilt
    all_goals simp [damageModels] at hname

/-- In exact arithmetic the more a sensor was irradiated the more it captures,
the more so with a lower draw and in a longer timestep.  A sensor that was not
irradiated captures carriers at the rate of the offsets, which is never in the
models without any. -/
theorem captures_more_with_fluence (hname : name ∈ damageModels)
    (h : 0 < temperature) (parameters : Parameters Extended) {light heavy : ℝ}
    (hlight : 0 ≤ light) (hheavy : light ≤ heavy) :
    ∃ pristine m n,
      select name (number temperature) (parameters.withFluence (number 0)) =
        .ok pristine ∧
      select name (number temperature)
        (parameters.withFluence (number light)) = .ok m ∧
      select name (number temperature)
        (parameters.withFluence (number heavy)) = .ok n ∧
      ∀ carrier,
        (∀ draw draw' timestep timestep' : ℝ, 0 ≤ draw' → draw' ≤ draw →
          draw < 1 → 0 ≤ timestep → timestep ≤ timestep' →
          m.captures carrier (number draw) (number timestep) = true →
          n.captures carrier (number draw') (number timestep') = true) ∧
        (∀ draw timestep : ℝ, 0 ≤ draw → draw < 1 → 0 ≤ timestep →
          (pristine.captures carrier (number draw) (number timestep) = true ↔
            draw < 1 - Real.exp (-((offsets name).get carrier / ns *
              timestep))) ∧
          (name ≠ "cmstracker" →
            pristine.captures carrier (number draw) (number timestep) =
              false)) := by
  obtain ⟨d, hoffset, hselect⟩ := exists_damage hname h
  refine ⟨_, _, _, select_withFluence hselect le_rfl,
    select_withFluence hselect hlight,
    select_withFluence hselect (hlight.trans hheavy), fun carrier => ⟨?_, ?_⟩⟩
  · intro draw draw' timestep timestep' hdraw hdraws _ htimestep htimesteps
    exact (d.decaysAt carrier hlight).mono
      (d.decaysAt carrier (hlight.trans hheavy)) (d.rate_le carrier hheavy)
      hdraw hdraws htimestep htimesteps
  · intro draw timestep hdraw _ _
    have hcaptures := (d.decaysAt carrier le_rfl).decays_iff draw timestep hdraw
    rw [Damage.rate, damageRate_zero, hoffset, decayShare] at hcaptures
    refine ⟨hcaptures, fun hne => ?_⟩
    have hzero : (offsets name).get carrier = 0 := by
      rw [offsets, if_neg hne]
      cases carrier <;> norm_num [PerCarrier.get]
    rw [← Bool.not_eq_true, hcaptures, hzero]
    simpa using hdraw

theorem captures_more_with_fluence_cmstracker :
    "cmstracker" ∈ damageModels ∧ (0 : ℝ) < 263 ∧ (0 : ℝ) ≤ 1e12 ∧
    (1e12 : ℝ) ≤ 2e12 ∧
    ∃ pristine : Trapping Extended,
      select "cmstracker" (number 263)
        (Parameters.standard.withFluence (number 0)) = .ok pristine ∧
      pristine.captures .electron (number 0) (number 1) = true := by
  have hname : "cmstracker" ∈ damageModels := by simp [damageModels]
  have htemperature : (0 : ℝ) < 263 := by norm_num
  have hlight : (0 : ℝ) ≤ 1e12 := by norm_num
  have hheavy : (1e12 : ℝ) ≤ 2e12 := by norm_num
  obtain ⟨pristine, m, n, hpristine, -, -, hcaptures⟩ :=
    captures_more_with_fluence hname htemperature .standard hlight hheavy
  refine ⟨hname, htemperature, hlight, hheavy, pristine, hpristine, ?_⟩
  obtain ⟨-, hoffset⟩ := hcaptures .electron
  obtain ⟨hiff, -⟩ := hoffset 0 1 le_rfl one_pos zero_le_one
  rw [hiff, offsets, if_pos rfl, sub_pos, Real.exp_lt_one_iff]
  norm_num [PerCarrier.get, ns]

end Trapping

end CarrierTransport
