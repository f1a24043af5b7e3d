import CarrierTransport.Proofs.Silicon.Ionization
import CarrierTransport.Proofs.Silicon.Recombination
import CarrierTransport.Proofs.Silicon.Trapping

/-!
# Paths cut into steps

The timesteps of a flight follow from numerical errors, so they must not matter
for the physics.  They do not: recombination, trapping and multiplication along
a path are the same however it is cut into steps.
-/

namespace CarrierTransport

open CarrierTransport.Units
open Extended (number)

/-! ## Coefficients of impact ionization -/

noncomputable def IonizationLaw.extended (l : IonizationLaw ℝ) :
    IonizationLaw Extended :=
  ⟨number l.rate, number l.field⟩

/-- An ionization law is a number in every field; it vanishes without one. -/
theorem exists_exp_div {field : ℝ} (hfield : 0 < field) (efield : ℝ) :
    ∃ x, Scalar.exp (number (-field) / number efield) = number x := by
  by_cases hefield : efield = 0
  · subst hefield
    rw [Extended.number_div_zero (neg_ne_zero.mpr hfield.ne')]
    exact ⟨0, by simp [hfield]⟩
  · rw [Extended.number_div hefield]
    exact ⟨_, rfl⟩

section Coefficients

variable {temperature : ℝ}

namespace Massey

theorem law_number (temperature : ℝ) (carrier : Carrier) :
    (atTemperature (number temperature)).law.get carrier =
      ((atTemperature temperature).law.get carrier).extended := by
  have hcm := cm_pos.ne'
  cases carrier <;>
    simp [atTemperature, PerCarrier.get, IonizationLaw.extended,
      Extended.number_div hcm]

theorem exists_coefficient (h : 0 < temperature) (carrier : Carrier)
    (efield : ℝ) :
    ∃ x, (atTemperature (number temperature)).coefficient carrier
      (number efield) = number x := by
  obtain ⟨x, hx⟩ := exists_exp_div (field_pos h carrier) efield
  unfold coefficient
  simp only [law_number, IonizationLaw.extended, Extended.number_neg, hx]
  exact ⟨_, rfl⟩

end Massey

namespace VanOverstraeten

theorem gamma_number (h : 0 < temperature) :
    (atTemperature (number temperature)).gamma =
      number (atTemperature temperature).gamma := by
  have hboltzmann := boltzmann_pos
  have helectronvolt := electronvolt_pos
  have hroom : (2.0 * boltzmann * 300.0 : ℝ) ≠ 0 := by positivity
  have hthermal : (2.0 * boltzmann * temperature : ℝ) ≠ 0 := by positivity
  have hphonon : Real.tanh (0.063 * electronvolt /
      (2.0 * boltzmann * temperature)) ≠ 0 :=
    (tanh_pos (by positivity)).ne'
  simp only [atTemperature, Extended.ofScientific_eq, Extended.electronvolt_eq,
    Extended.boltzmann_eq, Extended.number_mul, Extended.number_div hroom,
    Extended.number_div hthermal, Extended.tanh_number]
  exact Extended.number_div hphonon

theorem law_number (temperature : ℝ) (carrier : Carrier) (efield : ℝ) :
    (atTemperature (number temperature)).law carrier (number efield) =
      ((atTemperature temperature).law carrier efield).extended := by
  have hcm := cm_pos.ne'
  have hswitch : (atTemperature (number temperature)).holeSwitch =
      number (atTemperature temperature).holeSwitch := by
    simp [atTemperature, Extended.number_div hcm]
  unfold law
  cases carrier with
  | electron =>
      simp [atTemperature, IonizationLaw.extended, Extended.number_div hcm]
  | hole =>
      simp only [hswitch, Extended.number_lt_number]
      split <;>
        simp [atTemperature, IonizationLaw.extended, Extended.number_div hcm]

theorem exists_coefficient (h : 0 < temperature) (carrier : Carrier)
    (efield : ℝ) :
    ∃ x, (atTemperature (number temperature)).coefficient carrier
      (number efield) = number x := by
  obtain ⟨x, hx⟩ := exists_exp_div
    (mul_pos (gamma_pos h) (law_field_pos temperature carrier efield)) efield
  unfold coefficient
  simp only [law_number, gamma_number h, IonizationLaw.extended,
    Extended.number_neg, Extended.number_mul, neg_mul, hx]
  exact ⟨_, rfl⟩

end VanOverstraeten

namespace OkutoCrowell

theorem law_number (temperature : ℝ) (carrier : Carrier) :
    (atTemperature (number temperature)).law.get carrier =
      ((atTemperature temperature).law.get carrier).extended := by
  have hcm := cm_pos.ne'
  have hvolt := volt_pos.ne'
  cases carrier <;>
    simp [atTemperature, PerCarrier.get, IonizationLaw.extended,
      Extended.number_div hcm, Extended.number_div hvolt]

theorem exists_coefficient (h : 0 < temperature) (carrier : Carrier)
    (efield : ℝ) :
    ∃ x, (atTemperature (number temperature)).coefficient carrier
      (number efield) = number x := by
  have hfield := field_pos h carrier
  unfold coefficient
  simp only [law_number, IonizationLaw.extended]
  by_cases hefield : efield = 0
  · subst hefield
    rw [Extended.number_div_zero hfield.ne',
      decide_eq_false hfield.le.not_gt]
    exact ⟨_, rfl⟩
  · simp only [Extended.number_div hefield, Extended.number_neg,
      Extended.number_mul, Extended.exp_number]
    exact ⟨_, rfl⟩

end OkutoCrowell

theorem IonizationModel.exists_coefficient {name : String}
    {m : IonizationModel Extended} (h : 0 < temperature)
    (hbuilt : ofName? name (number temperature) = some m) (carrier : Carrier)
    (efield : ℝ) : ∃ x, m.coefficient carrier (number efield) = number x := by
  unfold ofName? at hbuilt
  split at hbuilt <;> cases hbuilt
  case h_1 => exact ⟨_, rfl⟩
  case h_2 => exact Massey.exists_coefficient h carrier efield
  case h_3 | h_4 => exact VanOverstraeten.exists_coefficient h carrier efield
  case h_5 | h_6 => exact OkutoCrowell.exists_coefficient h carrier efield

namespace Ionization

variable {name : String} {parameters : Parameters Extended}
variable {m : Ionization Extended}

/-- Steps in one field multiply the charge at one rate per length. -/
theorem exists_gain (h : 0 < temperature)
    (hbuilt : select name (number temperature) parameters = .ok m)
    (carrier : Carrier) (efield : ℝ) :
    ∃ x, ∀ length : ℝ, m.gain carrier (number efield) (number length) =
      number (Real.exp (x * length)) := by
  unfold gain
  split
  · exact ⟨0, by simp [decimal_one]⟩
  · obtain ⟨x, hx⟩ := IonizationModel.exists_coefficient h
      (ofName?_of_select hbuilt) carrier efield
    exact ⟨x, by simp [hx]⟩

end Ionization

end Coefficients

/-! ## Subdivisions -/

/-- In exact arithmetic none of the models depends on how a time or a length is
cut.  The probabilities to survive the timesteps, for recombination and for
trapping, multiply to that of their sum, and the gains of the steps in one field
multiply to that of their whole length. -/
theorem subdivision_has_no_effect {temperature : ℝ} (h : 0 < temperature)
    (name : String) (parameters : Parameters Extended) :
    (∀ hasDoping m,
      Recombination.select name (number temperature) parameters hasDoping =
        .ok m →
      ∀ carrier (doping : ℝ), ∃ probability : ℝ → ℝ,
        (∀ timestep, 0 ≤ timestep →
          FiresBelow (m.recombines carrier (number doping) ·
            (number timestep)) (probability timestep)) ∧
        Memoryless probability) ∧
    (∀ m, Trapping.select name (number temperature) parameters = .ok m →
      ∀ carrier, ∃ probability : ℝ → ℝ,
        (∀ timestep, 0 ≤ timestep →
          FiresBelow (m.captures carrier · (number timestep))
            (probability timestep)) ∧
        Memoryless probability) ∧
    (∀ m, Ionization.select name (number temperature) parameters = .ok m →
      ∀ carrier (efield : ℝ), ∃ gain : ℝ → ℝ,
        (∀ length, 0 ≤ length →
          m.gain carrier (number efield) (number length) =
            number (gain length)) ∧
        ∀ lengths : List ℝ, (∀ length ∈ lengths, 0 ≤ length) →
          (lengths.map gain).prod = gain lengths.sum) := by
  refine ⟨?_, ?_, ?_⟩
  · intro hasDoping m hbuilt carrier doping
    obtain ⟨rate, hdecays⟩ :=
      Recombination.exists_decaysAt_of_select h hbuilt carrier doping
    exact hdecays.memoryless
  · intro m hbuilt carrier
    obtain ⟨rate, hdecays⟩ :=
      Trapping.exists_decaysAt_of_select h hbuilt carrier
    exact hdecays.memoryless
  · intro m hbuilt carrier efield
    obtain ⟨x, hgain⟩ := Ionization.exists_gain h hbuilt carrier efield
    exact ⟨fun length => Real.exp (x * length), fun length _ => hgain length,
      fun lengths _ => prod_exp_mul x lengths⟩

theorem select_okuto :
    Ionization.select "okuto" (number 300) .standard =
      .ok ⟨.okutoCrowell (.atTemperature (number 300)), number 1e-2⟩ := by
  have hthreshold : ¬number 1e-2 < 0.0 := by
    rw [Extended.ofScientific_eq, Extended.number_lt_number]
    norm_num
  exact if_neg (by simpa [Parameters.standard] using hthreshold)

/-- Three units of time or length are cut into one and two. -/
theorem subdivision_has_no_effect_room :
    (0 : ℝ) < 300 ∧
    (∃ m, ∃ probability : ℝ → ℝ,
      Recombination.select "srh_auger" (number 300) .standard true = .ok m ∧
      FiresBelow (m.recombines .hole (number 1e16) · (number 3))
        (probability 3) ∧
      (1 - probability 1) * (1 - probability 2) = 1 - probability 3) ∧
    (∃ m, ∃ probability : ℝ → ℝ,
      Trapping.select "dortmund" (number 300)
        (Parameters.standard.withFluence (number 1e12)) = .ok m ∧
      FiresBelow (m.captures .electron · (number 3)) (probability 3) ∧
      (1 - probability 1) * (1 - probability 2) = 1 - probability 3) ∧
    (∃ m, ∃ gain : ℝ → ℝ,
      Ionization.select "okuto" (number 300) .standard = .ok m ∧
      m.gain .hole (number 0.03) (number 3) = number (gain 3) ∧
      gain 1 * gain 2 = gain 3) := by
  have hroom : (0 : ℝ) < 300 := by norm_num
  have hthree : (0 : ℝ) ≤ 3 := by norm_num
  have hparts : ∀ part ∈ [(1 : ℝ), 2], 0 ≤ part := by simp
  have hsum : [(1 : ℝ), 2].sum = 3 := by norm_num
  have hdortmund : Trapping.select "dortmund" (number 300)
      (Parameters.standard.withFluence (number 1e12)) = .ok _ :=
    Trapping.select_withFluence (d := .dortmund) (fun _ => rfl) (by norm_num)
  obtain ⟨hrecombines, -, -⟩ :=
    subdivision_has_no_effect hroom "srh_auger" .standard
  obtain ⟨-, hcaptures, -⟩ := subdivision_has_no_effect hroom "dortmund"
    (Parameters.standard.withFluence (number 1e12))
  obtain ⟨-, -, hgains⟩ := subdivision_has_no_effect hroom "okuto" .standard
  obtain ⟨p, hp, hsurvival⟩ := hrecombines true _ rfl .hole 1e16
  obtain ⟨q, hq, hsurvival'⟩ := hcaptures _ hdortmund .electron
  obtain ⟨gain, hgain, hproduct⟩ := hgains _ select_okuto .hole 0.03
  have hp' := hsurvival _ hparts
  have hq' := hsurvival' _ hparts
  have hgain' := hproduct _ hparts
  rw [hsum] at hp' hq' hgain'
  refine ⟨hroom, ⟨_, p, rfl, hp 3 hthree, ?_⟩,
    ⟨_, q, hdortmund, hq 3 hthree, ?_⟩,
    ⟨_, gain, select_okuto, hgain 3 hthree, ?_⟩⟩
  · simpa using hp'
  · simpa using hq'
  · simpa using hgain'

end CarrierTransport
