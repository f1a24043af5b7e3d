import Mathlib.Analysis.SpecialFunctions.Trigonometric.DerivHyp
import CarrierTransport.Proofs.Scalar.Real
import CarrierTransport.Proofs.Silicon.Models

/-!
# Coefficients of impact ionization

In exact arithmetic no coefficient is negative at a temperature above zero, so
no step takes carriers away.
-/

namespace CarrierTransport

open CarrierTransport.Units

theorem tanh_pos {x : ℝ} (hx : 0 < x) : 0 < Real.tanh x := by
  rw [Real.tanh_eq_sinh_div_cosh]
  exact div_pos (Real.sinh_pos_iff.mpr hx) (Real.cosh_pos x)

namespace Massey

theorem rate_nonneg (temperature : ℝ) (carrier : Carrier) :
    0 ≤ ((atTemperature temperature).law.get carrier).rate := by
  cases carrier <;>
    norm_num [atTemperature, PerCarrier.get, cm, mm]

theorem field_pos {temperature : ℝ} (h : 0 < temperature)
    (carrier : Carrier) :
    0 < ((atTemperature temperature).law.get carrier).field := by
  have hvolt := volt_pos
  have hcm := cm_pos
  cases carrier <;> simp only [atTemperature, PerCarrier.get] <;> positivity

theorem coefficient_nonneg (temperature : ℝ) (carrier : Carrier)
    (efield : ℝ) :
    0 ≤ (atTemperature temperature).coefficient carrier efield :=
  mul_nonneg (rate_nonneg temperature carrier) (Real.exp_pos _).le

end Massey

namespace VanOverstraeten

variable {temperature : ℝ}

theorem gamma_pos (h : 0 < temperature) :
    0 < (atTemperature temperature).gamma := by
  have hphonon (kelvins : ℝ) (hpos : 0 < kelvins) :
      0 < 0.063 * electronvolt / (2.0 * boltzmann * kelvins) := by
    have helectronvolt := electronvolt_pos
    have hboltzmann := boltzmann_pos
    positivity
  exact div_pos (tanh_pos (hphonon 300.0 (by norm_num)))
    (tanh_pos (hphonon temperature h))

theorem rate_nonneg (temperature : ℝ) (carrier : Carrier) (efield : ℝ) :
    0 ≤ ((atTemperature temperature).law carrier efield).rate := by
  unfold law
  cases carrier with
  | electron => norm_num [atTemperature, cm, mm]
  | hole =>
      dsimp only
      split <;> norm_num [atTemperature, cm, mm]

theorem law_field_pos (temperature : ℝ) (carrier : Carrier)
    (efield : ℝ) :
    0 < ((atTemperature temperature).law carrier efield).field := by
  unfold law
  cases carrier with
  | electron => norm_num [atTemperature, volt, megavolt, cm, mm]
  | hole =>
      dsimp only
      split <;> norm_num [atTemperature, volt, megavolt, cm, mm]

theorem coefficient_nonneg (h : 0 < temperature) (carrier : Carrier)
    (efield : ℝ) :
    0 ≤ (atTemperature temperature).coefficient carrier efield :=
  mul_nonneg
    (mul_nonneg (gamma_pos h).le (rate_nonneg temperature carrier efield))
    (Real.exp_pos _).le

end VanOverstraeten

namespace OkutoCrowell

variable {temperature : ℝ}

/-- Numbers that are linear in the temperature would change sign at temperatures
below zero only. -/
theorem linear_pos (h : 0 < temperature) {slope : ℝ} (hslope : 0 ≤ slope)
    (hsmall : slope * 300.0 < 1) :
    0 < 1.0 + slope * (temperature - 300.0) := by
  have hslope' : 0 ≤ slope * temperature := mul_nonneg hslope h.le
  norm_num [mul_sub] at hsmall ⊢
  linarith

theorem rate_nonneg (h : 0 < temperature) (carrier : Carrier) :
    0 ≤ ((atTemperature temperature).law.get carrier).rate := by
  have hvolt := volt_pos
  cases carrier
  · exact mul_nonneg (by positivity)
      (linear_pos h (by norm_num) (by norm_num)).le
  · exact mul_nonneg (by positivity)
      (linear_pos h (by norm_num) (by norm_num)).le

theorem field_pos (h : 0 < temperature) (carrier : Carrier) :
    0 < ((atTemperature temperature).law.get carrier).field := by
  have hvolt := volt_pos
  have hcm := cm_pos
  cases carrier
  · exact mul_pos (by positivity)
      (linear_pos h (by norm_num) (by norm_num))
  · exact mul_pos (by positivity)
      (linear_pos h (by norm_num) (by norm_num))

theorem coefficient_nonneg (h : 0 < temperature) (carrier : Carrier)
    {efield : ℝ} (hefield : 0 ≤ efield) :
    0 ≤ (atTemperature temperature).coefficient carrier efield :=
  mul_nonneg (mul_nonneg (rate_nonneg h carrier) hefield) (Real.exp_pos _).le

end OkutoCrowell

theorem IonizationModel.coefficient_nonneg {name : String} {temperature : ℝ}
    {m : IonizationModel ℝ} (h : 0 < temperature)
    (hbuilt : ofName? name temperature = some m) (carrier : Carrier)
    {efield : ℝ} (hefield : 0 ≤ efield) : 0 ≤ m.coefficient carrier efield := by
  unfold ofName? at hbuilt
  split at hbuilt <;> cases hbuilt
  case h_1 => norm_num [coefficient]
  case h_2 => exact Massey.coefficient_nonneg temperature carrier efield
  case h_3 | h_4 => exact VanOverstraeten.coefficient_nonneg h carrier efield
  case h_5 | h_6 => exact OkutoCrowell.coefficient_nonneg h carrier hefield

namespace Ionization

/-- The logarithm of the factor by which a step multiplies the charge. -/
noncomputable def exponent (m : Ionization ℝ) (carrier : Carrier)
    (efield length : ℝ) : ℝ :=
  if m.threshold ≤ efield then m.model.coefficient carrier efield * length
  else 0

theorem gain_eq_exp (m : Ionization ℝ) (carrier : Carrier)
    (efield length : ℝ) :
    m.gain carrier efield length =
      Real.exp (m.exponent carrier efield length) := by
  have hone : (1.0 : ℝ) = Real.exp 0 := by
    rw [Real.exp_zero]
    norm_num
  obtain ⟨model, threshold⟩ := m
  unfold gain exponent
  by_cases hbelow : efield < threshold
  · simp [hbelow, hone, not_le.mpr hbelow]
  · rw [if_pos (not_lt.mp hbelow)]
    cases model with
    | none =>
        have hzero : (0.0 : ℝ) * length = 0 := by norm_num
        exact hone.trans (congrArg Real.exp hzero.symm)
    | massey | vanOverstraeten | okutoCrowell =>
        exact if_neg (by simpa [isEnabled] using hbelow)

/-- No coefficient is negative, whatever the field. -/
def NeverDamps (m : Ionization ℝ) : Prop :=
  ∀ carrier efield, 0 ≤ efield → 0 ≤ m.model.coefficient carrier efield

theorem select_eq_ok {name : String} {temperature : ℝ}
    {parameters : Parameters ℝ} {model : IonizationModel ℝ}
    (hmodel : IonizationModel.ofName? name temperature = some model)
    (hthreshold : 0.0 ≤ parameters.multiplicationThreshold) :
    select name temperature parameters =
      .ok ⟨model, parameters.multiplicationThreshold⟩ := by
  have hvalid : (!Scalar.isFinite parameters.multiplicationThreshold ||
      decide (parameters.multiplicationThreshold < 0.0)) = false := by
    rw [decide_eq_false (not_lt.mpr hthreshold)]
    rfl
  unfold select
  rw [hmodel]
  exact if_neg (Bool.eq_false_iff.mp hvalid)

theorem ofName?_of_select {α : Type} [Scalar α] {name : String}
    {temperature : α} {parameters : Parameters α} {m : Ionization α}
    (hbuilt : select name temperature parameters = .ok m) :
    IonizationModel.ofName? name temperature = some m.model := by
  unfold select at hbuilt
  split at hbuilt
  case h_1 => cases hbuilt
  case h_2 model hmodel =>
    dsimp only at hbuilt
    split at hbuilt
    · cases hbuilt
    · cases hbuilt
      exact hmodel

theorem neverDamps_of_select {name : String} {temperature : ℝ}
    {parameters : Parameters ℝ} {m : Ionization ℝ} (h : 0 < temperature)
    (hbuilt : select name temperature parameters = .ok m) : m.NeverDamps :=
  fun carrier _ hefield => IonizationModel.coefficient_nonneg h
    (ofName?_of_select hbuilt) carrier hefield

theorem NeverDamps.exponent_nonneg {m : Ionization ℝ} (h : m.NeverDamps)
    (carrier : Carrier) {efield length : ℝ} (hefield : 0 ≤ efield)
    (hlength : 0 ≤ length) : 0 ≤ m.exponent carrier efield length := by
  unfold exponent
  split
  · exact mul_nonneg (h carrier efield hefield) hlength
  · exact le_rfl

end Ionization

end CarrierTransport
