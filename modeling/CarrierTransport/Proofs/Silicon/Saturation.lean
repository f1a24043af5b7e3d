import Mathlib.Analysis.SpecialFunctions.Pow.Asymptotics
import Mathlib.Analysis.SpecialFunctions.Pow.Continuity
import CarrierTransport.Proofs.Silicon.Mobility

/-!
# Saturation of the drift velocity

A mobility that saturates falls with the field, but not as fast as the field
rises: carriers drift the faster the higher the field is, and never as fast as
the saturation velocity.  The formulas of all models that saturate are one
formula of a low-field mobility, a velocity and an exponent.
-/

namespace CarrierTransport

open Filter Topology

/-- Mobilities in fields of any magnitude under which the drift velocity
saturates. -/
structure Saturates (mobility : ℝ → ℝ) (velocity : ℝ) : Prop where
  pos : ∀ efield, 0 ≤ efield → 0 < mobility efield
  antitone : ∀ low high, 0 ≤ low → low ≤ high → mobility high ≤ mobility low
  speed_mono : ∀ low high, 0 ≤ low → low ≤ high →
    mobility low * low ≤ mobility high * high
  speed_lt : ∀ efield, 0 ≤ efield → mobility efield * efield < velocity
  /-- No smaller velocity bounds the speed. -/
  speed_tendsto :
    Tendsto (fun efield => mobility efield * efield) atTop (𝓝 velocity)

/-- Carriers drift slower than the saturation velocity in every field. -/
theorem Saturates.norm_drift_lt {mobility : ℝ → ℝ} {velocity : ℝ}
    (h : Saturates mobility velocity) (carrier : Carrier) (field : Vec3 ℝ) :
    (drift carrier (mobility field.norm) field).norm < velocity := by
  have hnorm := field.norm_nonneg
  rw [norm_drift, abs_of_pos (h.pos _ hnorm)]
  exact h.speed_lt _ hnorm

/-! ## The formula -/

noncomputable def saturatingMobility (low velocity beta efield : ℝ) : ℝ :=
  low / (1 + (low * efield / velocity) ^ beta) ^ (1 / beta)

/-- The speed in units of the saturation velocity.  The ratio is that of the
speed without saturation. -/
noncomputable def speedShare (beta ratio : ℝ) : ℝ :=
  (ratio ^ beta / (1 + ratio ^ beta)) ^ (1 / beta)

section Formula

theorem share_lt_one {x : ℝ} (hx : 0 ≤ x) : x / (1 + x) < 1 := by
  rw [div_lt_one (by linarith)]
  linarith

theorem share_tendsto : Tendsto (fun x : ℝ => x / (1 + x)) atTop (𝓝 1) := by
  have hrest : Tendsto (fun x : ℝ => 1 - 1 / (1 + x)) atTop (𝓝 (1 - 0)) := by
    apply Tendsto.const_sub
    apply Tendsto.div_atTop tendsto_const_nhds
    exact tendsto_atTop_add_const_left atTop 1 tendsto_id
  rw [sub_zero] at hrest
  apply hrest.congr'
  filter_upwards [eventually_ge_atTop 0] with x hx
  exact one_sub_share hx

variable {beta : ℝ} (hbeta : 0 < beta)
include hbeta

theorem speedShare_le {slow fast : ℝ} (hslow : 0 ≤ slow) (hle : slow ≤ fast) :
    speedShare beta slow ≤ speedShare beta fast := by
  have hpower := Real.rpow_nonneg hslow beta
  have hpowers := Real.rpow_le_rpow hslow hle hbeta.le
  apply Real.rpow_le_rpow (by positivity) (share_le_share hpower hpowers)
  exact (one_div_pos.mpr hbeta).le

theorem speedShare_lt_one {ratio : ℝ} (hratio : 0 ≤ ratio) :
    speedShare beta ratio < 1 := by
  have hpower := Real.rpow_nonneg hratio beta
  apply Real.rpow_lt_one (by positivity) (share_lt_one hpower)
  exact one_div_pos.mpr hbeta

theorem speedShare_tendsto : Tendsto (speedShare beta) atTop (𝓝 1) := by
  have hshare := share_tendsto.comp (tendsto_rpow_atTop hbeta)
  have hroot := hshare.rpow_const (.inl one_ne_zero : _ ∨ 0 ≤ 1 / beta)
  rwa [Real.one_rpow] at hroot

/-- The root undoes the power. -/
theorem speedShare_eq {ratio : ℝ} (hratio : 0 ≤ ratio) :
    speedShare beta ratio = ratio / (1 + ratio ^ beta) ^ (1 / beta) := by
  have hpower := Real.rpow_nonneg hratio beta
  have hroot : (ratio ^ beta) ^ (1 / beta) = ratio := by
    rw [← Real.rpow_mul hratio, mul_one_div_cancel hbeta.ne', Real.rpow_one]
  rw [speedShare, Real.div_rpow hpower (by positivity), hroot]

variable {low velocity efield : ℝ}

theorem saturatingMobility_zero :
    saturatingMobility low velocity beta 0 = low := by
  unfold saturatingMobility
  simp [hbeta.ne']

variable (hlow : 0 < low) (hvelocity : 0 < velocity)
include hlow hvelocity

theorem saturatingMobility_mul (hefield : 0 ≤ efield) :
    saturatingMobility low velocity beta efield * efield =
      velocity * speedShare beta (low * efield / velocity) := by
  rw [speedShare_eq hbeta (by positivity), saturatingMobility]
  field_simp

theorem saturates_saturatingMobility :
    Saturates (saturatingMobility low velocity beta) velocity where
  pos efield hefield := by
    unfold saturatingMobility
    positivity
  antitone lower higher hlower hle := by
    have hratio : 0 ≤ low * lower / velocity := by positivity
    unfold saturatingMobility
    apply div_le_div_of_nonneg_left hlow.le (by positivity)
    gcongr
  speed_mono lower higher hlower hle := by
    have hratio : 0 ≤ low * lower / velocity := by positivity
    have hratios : low * lower / velocity ≤ low * higher / velocity := by gcongr
    rw [saturatingMobility_mul hbeta hlow hvelocity hlower,
      saturatingMobility_mul hbeta hlow hvelocity (hlower.trans hle)]
    exact mul_le_mul_of_nonneg_left (speedShare_le hbeta hratio hratios)
      hvelocity.le
  speed_lt efield hefield := by
    have hratio : 0 ≤ low * efield / velocity := by positivity
    rw [saturatingMobility_mul hbeta hlow hvelocity hefield]
    exact mul_lt_of_lt_one_right hvelocity (speedShare_lt_one hbeta hratio)
  speed_tendsto := by
    have hratio : Tendsto (fun efield => low * efield / velocity) atTop
        atTop := by
      apply Tendsto.atTop_div_const hvelocity
      exact Tendsto.const_mul_atTop hlow tendsto_id
    have hspeed := ((speedShare_tendsto hbeta).comp hratio).const_mul velocity
    rw [mul_one] at hspeed
    apply hspeed.congr'
    filter_upwards [eventually_ge_atTop 0] with efield hefield
    exact (saturatingMobility_mul hbeta hlow hvelocity hefield).symm

end Formula

/-! ## Models -/

namespace SaturatingMobility

theorem IsPositive.evaluate_eq {m : SaturatingMobility ℝ} {carrier : Carrier}
    (h : m.IsPositive carrier) (efield : ℝ) :
    m.evaluate carrier efield =
      saturatingMobility
        (m.saturationVelocity.get carrier / m.criticalField.get carrier)
        (m.saturationVelocity.get carrier) (m.beta.get carrier) efield := by
  have hratio : m.saturationVelocity.get carrier /
      m.criticalField.get carrier * efield /
        m.saturationVelocity.get carrier =
      efield / m.criticalField.get carrier := by
    have hvelocity := h.velocity.ne'
    field_simp
  rw [saturatingMobility, hratio]
  unfold evaluate
  rw [decimal_one]
  rfl

/-- Two fits that differ in the velocity of electrons only. -/
theorem evaluate_lt {temperature slow fast : ℝ} (h : 0 < temperature)
    (hslow : 0 < slow) (hlt : slow < fast) {efield : ℝ}
    (hefield : 0 ≤ efield) :
    (withElectronVelocity temperature slow).evaluate .electron efield <
      (withElectronVelocity temperature fast).evaluate .electron efield := by
  have hcritical := (isPositive h hslow .electron).critical
  have hcm := cm_pos
  have hs := s_pos
  have hpower := Scalar.power_pos h (-0.87)
  have hvelocity :
      slow * Units.cm / Units.s * Scalar.power temperature (-0.87) <
        fast * Units.cm / Units.s * Scalar.power temperature (-0.87) := by
    gcongr
  exact div_lt_div_of_pos_right (div_lt_div_of_pos_right hvelocity hcritical)
    (saturation_pos (div_nonneg hefield hcritical.le))

end SaturatingMobility

/-- The sum of reciprocals is the formula with exponent one. -/
theorem HamburgMobility.IsPositive.evaluate_electron_eq
    {m : HamburgMobility ℝ} (h : m.IsPositive) (efield : ℝ) :
    m.evaluate .electron efield =
      saturatingMobility m.electronLow m.electronSaturation 1 efield := by
  have hlow := h.electronLow.ne'
  have hsum : 1 + m.electronLow * efield / m.electronSaturation =
      m.electronLow * (1 / m.electronLow + efield / m.electronSaturation) := by
    field_simp
  unfold evaluate saturatingMobility
  rw [decimal_one, div_one, Real.rpow_one, Real.rpow_one, hsum,
    div_mul_cancel_left₀ hlow, one_div]

theorem MasettiCanaliMobility.evaluate_eq (m : MasettiCanaliMobility ℝ)
    (carrier : Carrier) (efield doping : ℝ) :
    m.evaluate carrier efield doping =
      saturatingMobility ((m.lowField.get carrier).evaluate doping)
        (m.saturationVelocity.get carrier) (m.beta.get carrier) efield := by
  unfold evaluate
  rw [decimal_one]
  rfl

namespace Mobility

/-- Which carriers of which models saturate at a doping, and at which velocity:
those of a model with a critical field, the electrons of `hamburg` and, where
the low-field mobility is above zero, those of the model that reads the doping
too. -/
inductive HasSaturation : Mobility ℝ → Carrier → ℝ → ℝ → Prop where
  | saturating (model : SaturatingMobility ℝ) (carrier : Carrier) (doping : ℝ) :
      HasSaturation (.saturating model) carrier doping
        (model.saturationVelocity.get carrier)
  | hamburg (model : HamburgMobility ℝ) (doping : ℝ) :
      HasSaturation (.hamburg model) .electron doping model.electronSaturation
  | masettiCanali (model : MasettiCanaliMobility ℝ) (carrier : Carrier)
      (doping : ℝ) (hlow : 0 < (model.lowField.get carrier).evaluate doping) :
      HasSaturation (.masettiCanali model) carrier doping
        (model.saturationVelocity.get carrier)

theorem HasSaturation.saturates {m : Mobility ℝ} {carrier : Carrier}
    {doping velocity : ℝ} (h : m.HasSaturation carrier doping velocity)
    (hpositive : m.DividesByPositive carrier) :
    Saturates (m.evaluate carrier · doping) velocity := by
  cases h with
  | saturating model =>
      have hmodel : model.IsPositive carrier := hpositive
      have hformula := saturates_saturatingMobility hmodel.beta
        (div_pos hmodel.velocity hmodel.critical) hmodel.velocity
      rwa [← funext hmodel.evaluate_eq] at hformula
  | hamburg model =>
      have hmodel : model.IsPositive := hpositive
      have hformula := saturates_saturatingMobility one_pos
        hmodel.electronLow hmodel.electronSaturation
      rwa [← funext hmodel.evaluate_electron_eq] at hformula
  | masettiCanali model carrier doping hlow =>
      obtain ⟨hmodel, -⟩ := hpositive
      have hformula := saturates_saturatingMobility hmodel.beta hlow
        hmodel.velocity
      rwa [← funext fun efield =>
        model.evaluate_eq carrier efield doping] at hformula

section Select

variable {temperature : ℝ}

theorem evaluate_masettiCanali_zero (h : 0 < temperature) (carrier : Carrier)
    (doping : ℝ) :
    (masettiCanali (.atTemperature temperature)).evaluate carrier 0 doping =
      (masetti (CarrierTransport.masetti temperature)).evaluate carrier 0
        doping := by
  have hbeta := (MasettiCanaliMobility.isPositive h carrier).beta
  exact (MasettiCanaliMobility.evaluate_eq _ carrier 0 doping).trans
    (saturatingMobility_zero hbeta)

/-- In exact arithmetic at a temperature above zero, a mobility that saturates
is above zero and falls with the field, while the speed rises with the field and
stays below the saturation velocity, which it approaches.  Without a field the
model that reads the doping and the field is the one that reads the doping; the
model of Canali has slower electrons than that of Jacoboni in every field. -/
theorem velocity_saturates (h : 0 < temperature) (parameters : Parameters ℝ) :
    (∀ name hasDoping m,
      select name temperature parameters hasDoping = .ok m →
      ∀ carrier doping velocity, m.HasSaturation carrier doping velocity →
        Saturates (m.evaluate carrier · doping) velocity ∧
        ∀ field : Vec3 ℝ,
          (drift carrier (m.evaluate carrier field.norm doping) field).norm <
            velocity) ∧
    (∃ m low, select "masetti_canali" temperature parameters true = .ok m ∧
      select "masetti" temperature parameters true = .ok low ∧
      ∀ carrier doping,
        m.evaluate carrier 0 doping = low.evaluate carrier 0 doping) ∧
    ∀ hasDoping, ∃ slower faster,
      select "canali" temperature parameters hasDoping = .ok slower ∧
      select "jacoboni" temperature parameters hasDoping = .ok faster ∧
      ∀ efield doping, 0 < efield →
        slower.evaluate .electron efield doping <
          faster.evaluate .electron efield doping ∧
        slower.evaluate .electron efield doping * efield <
          faster.evaluate .electron efield doping * efield := by
  refine ⟨?_, ?_, ?_⟩
  · intro name hasDoping m hbuilt carrier doping velocity hsaturation
    have hsaturates :=
      hsaturation.saturates (dividesByPositive_of_select h hbuilt carrier)
    exact ⟨hsaturates, hsaturates.norm_drift_lt carrier⟩
  · exact ⟨_, _, rfl, rfl, evaluate_masettiCanali_zero h⟩
  · intro hasDoping
    refine ⟨_, _, rfl, rfl, ?_⟩
    intro efield doping hefield
    have hlt := SaturatingMobility.evaluate_lt h (by norm_num)
      (by norm_num : (1.43e9 : ℝ) < 1.53e9) hefield.le
    exact ⟨hlt, mul_lt_mul_of_pos_right hlt hefield⟩

end Select

/-- Holes among dopants of 1e16 per cubic centimetre at room temperature. -/
theorem velocity_saturates_room :
    select "masetti_canali" (300 : ℝ) .standard true =
        .ok (.masettiCanali (.atTemperature 300)) ∧
      Saturates
        ((masettiCanali (.atTemperature (300 : ℝ))).evaluate .hole · 1e13)
        (SaturatingMobility.canali (300 : ℝ)).saturationVelocity.hole ∧
      (saturating (.canali (300 : ℝ))).evaluate .electron 0.01 0 <
        (saturating (.jacoboni (300 : ℝ))).evaluate .electron 0.01 0 := by
  have hlow : 0 < (CarrierTransport.masetti (300 : ℝ)).hole.evaluate 1e13 :=
    masetti_hole_pos (by norm_num) (by norm_num [hottestLattice]) 1e13
  rcases velocity_saturates (by norm_num : (0 : ℝ) < 300) .standard with
    ⟨hsaturates, -, hslower⟩
  rcases hslower false with ⟨slower, faster, hcanali, hjacoboni, hless⟩
  cases hcanali
  cases hjacoboni
  refine ⟨rfl, ?_, (hless 0.01 0 (by norm_num)).1⟩
  exact (hsaturates "masetti_canali" true _ rfl .hole 1e13 _
    (.masettiCanali _ .hole 1e13 hlow)).1

end Mobility

end CarrierTransport
