import Mathlib.Analysis.Complex.ExponentialBounds
import CarrierTransport.Flight.Diffusion
import CarrierTransport.Proofs.Silicon.Drift
import CarrierTransport.Proofs.Silicon.Masetti

/-!
# Signs of the mobilities

In exact arithmetic a mobility is above zero, but for two fits that end before
the fields and the temperatures do: that of holes whose reciprocal mobility is a
parabola and falls to zero at a field, and that of holes between dopants in a
lattice so hot that it does not count.
-/

namespace CarrierTransport

open CarrierTransport.Units

/-! ## Saturation -/

namespace SaturatingMobility

structure IsPositive (m : SaturatingMobility ℝ) (carrier : Carrier) : Prop where
  velocity : 0 < m.saturationVelocity.get carrier
  critical : 0 < m.criticalField.get carrier
  beta : 0 < m.beta.get carrier

theorem isPositive {temperature velocity : ℝ} (h : 0 < temperature)
    (hvelocity : 0 < velocity) (carrier : Carrier) :
    (withElectronVelocity temperature velocity).IsPositive carrier := by
  have hpower (y : ℝ) := Scalar.power_pos h y
  have hcm := cm_pos
  have hvolt := volt_pos
  have hs := s_pos
  cases carrier with
  | electron =>
      exact ⟨mul_pos (by positivity) (hpower _),
        mul_pos (by positivity) (hpower _), mul_pos (by positivity) (hpower _)⟩
  | hole =>
      exact ⟨mul_pos (by positivity) (hpower _),
        mul_pos (by positivity) (hpower _), mul_pos (by positivity) (hpower _)⟩

/-- By how much a field reduces a mobility that saturates. -/
theorem saturation_pos {x beta : ℝ} (hx : 0 ≤ x) :
    0 < Scalar.power (1.0 + Scalar.power x beta) (1.0 / beta) := by
  have hone : (0 : ℝ) < 1.0 := by norm_num
  exact Scalar.power_pos (add_pos_of_pos_of_nonneg hone
    (Scalar.power_nonneg hx beta)) _

theorem IsPositive.evaluate_pos {m : SaturatingMobility ℝ} {carrier : Carrier}
    (h : m.IsPositive carrier) {efield : ℝ} (hefield : 0 ≤ efield) :
    0 < m.evaluate carrier efield :=
  div_pos (div_pos h.velocity h.critical)
    (saturation_pos (div_nonneg hefield h.critical.le))

end SaturatingMobility

/-! ## Reciprocals -/

namespace HamburgMobility

structure IsPositive (m : HamburgMobility ℝ) : Prop where
  electronLow : 0 < m.electronLow
  electronSaturation : 0 < m.electronSaturation
  holeLow : 0 < m.holeLow
  holeLinear : 0 < m.holeLinear
  holeQuadratic : m.holeQuadratic < 0

theorem isPositive {temperature : ℝ} (h : 0 < temperature) :
    (atTemperature temperature).IsPositive := by
  have hpower (y : ℝ) := Scalar.power_pos (reduced_pos h) y
  have hcm := cm_pos
  have hvolt := volt_pos
  have hs := s_pos
  refine ⟨mul_pos (by positivity) (hpower _),
    mul_pos (by positivity) (hpower _), mul_pos (by positivity) (hpower _),
    mul_pos (by positivity) (hpower _), ?_⟩
  exact div_neg_of_neg_of_pos (mul_neg_of_neg_of_pos (by norm_num) hs) hvolt

variable {m : HamburgMobility ℝ}

theorem IsPositive.evaluate_electron_pos (h : m.IsPositive) {efield : ℝ}
    (hefield : 0 ≤ efield) : 0 < m.evaluate .electron efield := by
  have hlow := h.electronLow
  have hsaturation := h.electronSaturation
  have hslow : 0 < 1.0 / m.electronLow + efield / m.electronSaturation := by
    positivity
  exact div_pos (by norm_num) hslow

/-- The reciprocal of the mobility of holes at a field beyond the onset. -/
noncomputable def holeReciprocal (m : HamburgMobility ℝ) (excess : ℝ) : ℝ :=
  1.0 / m.holeLow + m.holeLinear * excess + m.holeQuadratic * excess * excess

/-- How far beyond the onset the reciprocal of the mobility of holes is above
zero. -/
noncomputable def holeRange (m : HamburgMobility ℝ) : ℝ :=
  (m.holeLinear + √(m.holeLinear ^ 2 - 4.0 * m.holeQuadratic / m.holeLow)) /
    (-2.0 * m.holeQuadratic)

theorem holeRange_eq : m.holeRange =
    (m.holeLinear + √(m.holeLinear ^ 2 - 4 * m.holeQuadratic / m.holeLow)) /
      (-2 * m.holeQuadratic) := by
  norm_num [holeRange]

namespace IsPositive

variable (h : m.IsPositive)
include h

theorem holeRange_pos : 0 < m.holeRange :=
  div_pos (add_pos_of_pos_of_nonneg h.holeLinear (Real.sqrt_nonneg _))
    (mul_pos_of_neg_of_neg (by norm_num) h.holeQuadratic)

/-- The reciprocal is a parabola that opens downwards, and the field at which
its value is the low-field one again is behind its peak. -/
theorem holeReciprocal_pos_iff {excess : ℝ} (hexcess : 0 ≤ excess) :
    0 < m.holeReciprocal excess ↔ excess < m.holeRange := by
  have hlinear := h.holeLinear
  have hscale : 0 < -2 * m.holeQuadratic := by linarith [h.holeQuadratic]
  have hdiscriminant : m.holeLinear ^ 2 <
      m.holeLinear ^ 2 - 4 * m.holeQuadratic / m.holeLow := by
    have hratio := div_pos hscale h.holeLow
    have hsplit : 4 * m.holeQuadratic / m.holeLow =
        -2 * (-2 * m.holeQuadratic / m.holeLow) := by
      ring
    linarith
  have hsquare : (-2 * m.holeQuadratic * excess - m.holeLinear) ^ 2 +
      2 * (-2 * m.holeQuadratic * m.holeReciprocal excess) =
      m.holeLinear ^ 2 - 4 * m.holeQuadratic / m.holeLow := by
    rw [holeReciprocal]
    norm_num
    ring
  have hpositive : 0 < m.holeReciprocal excess ↔
      (-2 * m.holeQuadratic * excess - m.holeLinear) ^ 2 <
        m.holeLinear ^ 2 - 4 * m.holeQuadratic / m.holeLow := by
    rw [← mul_pos_iff_of_pos_left hscale]
    constructor <;> intro hlt <;> linarith
  have hrising := mul_nonneg hscale.le hexcess
  rw [holeRange_eq, lt_div_iff₀ hscale, hpositive]
  constructor
  · intro hlt
    linarith [Real.lt_sqrt_of_sq_lt hlt]
  · intro hlt
    have hroot := Real.lt_sqrt_of_sq_lt hdiscriminant
    rw [← Real.sq_sqrt ((sq_nonneg _).trans hdiscriminant.le)]
    exact sq_lt_sq' (by linarith) (by linarith)

theorem evaluate_hole_pos_iff {efield : ℝ} :
    0 < m.evaluate .hole efield ↔ efield < m.holeOnset + m.holeRange := by
  have hrange := h.holeRange_pos
  unfold evaluate
  dsimp only
  split
  · rename_i hbelow
    exact iff_of_true h.holeLow (by linarith)
  · rename_i habove
    have hexcess : 0 ≤ efield - m.holeOnset :=
      sub_nonneg.mpr (not_lt.mp habove)
    rw [← sub_lt_iff_lt_add', ← h.holeReciprocal_pos_iff hexcess]
    exact div_pos_iff_of_pos_left (by norm_num)

end IsPositive

end HamburgMobility

namespace AroraMobility

structure IsPositive (m : AroraMobility ℝ) (carrier : Carrier) : Prop where
  floor : 0 < m.floor.get carrier
  span : 0 < m.span.get carrier
  reference : 0 < m.reference.get carrier

theorem isPositive {temperature : ℝ} (h : 0 < temperature)
    (carrier : Carrier) : (atTemperature temperature).IsPositive carrier := by
  have hpower (y : ℝ) := Scalar.power_pos h y
  have hreduced (y : ℝ) := Scalar.power_pos (reduced_pos h) y
  have hunit := mobilityUnit_pos
  have hcm3 := perCm3_pos
  cases carrier with
  | electron =>
      exact ⟨mul_pos (mul_pos (by norm_num) (hreduced _)) hunit,
        mul_pos (mul_pos (by norm_num) (hpower _)) hunit,
        mul_pos (by positivity) (hreduced _)⟩
  | hole =>
      exact ⟨mul_pos (mul_pos (by norm_num) (hreduced _)) hunit,
        mul_pos (mul_pos (by norm_num) (hpower _)) hunit,
        mul_pos (by positivity) (hreduced _)⟩

theorem IsPositive.evaluate_pos {m : AroraMobility ℝ} {carrier : Carrier}
    (h : m.IsPositive carrier) (doping : ℝ) :
    0 < m.evaluate carrier doping := by
  have hratio : 0 ≤ |doping| / m.reference.get carrier :=
    div_nonneg (abs_nonneg doping) h.reference.le
  exact add_pos h.floor (div_pos h.span (add_pos_of_pos_of_nonneg (by norm_num)
    (Scalar.power_nonneg hratio _)))

end AroraMobility

namespace MasettiCanaliMobility

structure IsPositive (m : MasettiCanaliMobility ℝ) (carrier : Carrier) :
    Prop where
  velocity : 0 < m.saturationVelocity.get carrier
  beta : 0 < m.beta.get carrier

theorem isPositive {temperature : ℝ} (h : 0 < temperature)
    (carrier : Carrier) : (atTemperature temperature).IsPositive carrier := by
  have hcanali := SaturatingMobility.isPositive h
    (by norm_num : (0 : ℝ) < 1.43e9) carrier
  exact ⟨hcanali.velocity, hcanali.beta⟩

theorem IsPositive.evaluate_pos {m : MasettiCanaliMobility ℝ}
    {carrier : Carrier} (h : m.IsPositive carrier) {efield doping : ℝ}
    (hefield : 0 ≤ efield)
    (hlow : 0 < (m.lowField.get carrier).evaluate doping) :
    0 < m.evaluate carrier efield doping :=
  div_pos hlow (SaturatingMobility.saturation_pos
    (div_nonneg (mul_nonneg hlow.le hefield) h.velocity.le))

end MasettiCanaliMobility

/-! ## What follows from the sign -/

section Consequences

variable {mobility : ℝ}

theorem sign_mul_drift_pos (h : 0 < mobility) {carrier : Carrier}
    {field : Vec3 ℝ} (hfield : field ≠ 0) :
    0 < carrier.sign * (drift carrier mobility field).dot field := by
  have hsquare : 0 < field.dot field :=
    lt_of_le_of_ne field.dot_self_nonneg
      fun hzero => hfield (Vec3.eq_zero_of_dot_self hzero.symm)
  rw [drift, Vec3.dot_comm, Vec3.dot_smul, ← mul_assoc, ← mul_assoc,
    carrier.sign_mul_self, one_mul]
  exact mul_pos h hsquare

theorem hasWidth_iff {variance : ℝ} :
    hasWidth variance = true ↔ 0 ≤ variance := by
  simp [hasWidth, Scalar.isFinite, decimal_zero]

theorem hasWidth_of_pos {temperature timestep : ℝ}
    (htemperature : 0 < temperature) (h : 0 < mobility)
    (htimestep : 0 ≤ timestep) :
    hasWidth (diffusionVariance mobility temperature timestep) = true := by
  have hboltzmann := boltzmann_pos
  rw [hasWidth_iff, diffusionVariance]
  positivity

theorem not_hasWidth_of_neg {temperature timestep : ℝ}
    (htemperature : 0 < temperature) (h : mobility < 0)
    (htimestep : 0 < timestep) :
    hasWidth (diffusionVariance mobility temperature timestep) = false := by
  have hscale := mul_pos boltzmann_pos htemperature
  rw [← Bool.not_eq_true, hasWidth_iff, not_le]
  exact mul_neg_of_neg_of_pos
    (mul_neg_of_pos_of_neg (by norm_num) (mul_neg_of_pos_of_neg hscale h))
    htimestep

end Consequences

/-! ## All models -/

namespace Mobility

/-- No formula divides by zero: the numbers of its fit are above zero. -/
def DividesByPositive (m : Mobility ℝ) (carrier : Carrier) : Prop :=
  match m with
  | saturating model => model.IsPositive carrier
  | hamburg model => model.IsPositive
  | masetti fits =>
      0 < (fits.get carrier).middleDoping ∧ 0 < (fits.get carrier).highDoping
  | arora model => model.IsPositive carrier
  | masettiCanali model => model.IsPositive carrier ∧
      0 < (model.lowField.get carrier).middleDoping ∧
      0 < (model.lowField.get carrier).highDoping
  | constant _ => True

/-- Where a fit has ended: for the holes of `hamburg` at the field where their
reciprocal mobility has fallen to zero, and for those of `masetti` where a hot
lattice leaves less than high dopings take. -/
def HasEnded (name : String) (temperature : ℝ) (carrier : Carrier)
    (efield doping : ℝ) : Prop :=
  carrier = .hole ∧
    (name = "hamburg" ∧
        (HamburgMobility.atTemperature temperature).holeOnset +
          (HamburgMobility.atTemperature temperature).holeRange ≤ efield ∨
      (name = "masetti" ∨ name = "masetti_canali") ∧
        hottestLattice < temperature ∧
        (CarrierTransport.masetti temperature).hole.evaluate doping ≤ 0)

section Select

variable {name : String} {temperature : ℝ} {parameters : Parameters ℝ}
variable {hasDoping : Bool} {m : Mobility ℝ}

theorem masetti_pos {carrier : Carrier} {efield doping : ℝ}
    (h : 0 < temperature) (hname : name = "masetti" ∨ name = "masetti_canali")
    (hfit : ¬ HasEnded name temperature carrier efield doping) :
    0 <
      ((CarrierTransport.masetti temperature).get carrier).evaluate doping := by
  cases carrier with
  | electron => exact masetti_electron_pos h doping
  | hole =>
      obtain hle | hlt := le_or_gt temperature hottestLattice
      · exact masetti_hole_pos h hle doping
      · refine not_le.mp fun hended => hfit ⟨rfl, .inr ⟨hname, hlt, hended⟩⟩

theorem dividesByPositive_of_select (h : 0 < temperature)
    (hbuilt : select name temperature parameters hasDoping = .ok m)
    (carrier : Carrier) : m.DividesByPositive carrier := by
  have hfits : 0 < ((CarrierTransport.masetti temperature).get
        carrier).middleDoping ∧
      0 < ((CarrierTransport.masetti temperature).get carrier).highDoping := by
    have hcm3 := perCm3_pos
    cases carrier with
    | electron => exact ⟨mul_pos (by norm_num) hcm3, mul_pos (by norm_num) hcm3⟩
    | hole => exact ⟨mul_pos (by norm_num) hcm3, mul_pos (by norm_num) hcm3⟩
  unfold select at hbuilt
  split at hbuilt
  case h_1 | h_2 =>
    cases hbuilt
    exact SaturatingMobility.isPositive h (by norm_num) carrier
  case h_3 =>
    cases hbuilt
    exact HamburgMobility.isPositive h
  case h_4 =>
    obtain ⟨_, -, hbuilt⟩ := bind_eq_ok.mp hbuilt
    cases hbuilt
    exact hfits
  case h_5 =>
    obtain ⟨_, -, hbuilt⟩ := bind_eq_ok.mp hbuilt
    cases hbuilt
    exact AroraMobility.isPositive h carrier
  case h_6 =>
    obtain ⟨_, -, hbuilt⟩ := bind_eq_ok.mp hbuilt
    cases hbuilt
    exact ⟨MasettiCanaliMobility.isPositive h carrier, hfits⟩
  case h_7 =>
    obtain ⟨pair, -, hbuilt⟩ := bind_eq_ok.mp hbuilt
    cases hbuilt
    trivial
  case h_8 => cases hbuilt

theorem evaluate_pos_of_select (h : 0 < temperature)
    (hbuilt : select name temperature parameters hasDoping = .ok m)
    {carrier : Carrier} {efield : ℝ} (hefield : 0 ≤ efield) {doping : ℝ}
    (hfit : ¬ HasEnded name temperature carrier efield doping) :
    0 < m.evaluate carrier efield doping := by
  unfold select at hbuilt
  split at hbuilt
  case h_1 | h_2 =>
    cases hbuilt
    exact (SaturatingMobility.isPositive h (by norm_num) carrier).evaluate_pos
      hefield
  case h_3 =>
    cases hbuilt
    cases carrier with
    | electron =>
        exact (HamburgMobility.isPositive h).evaluate_electron_pos hefield
    | hole =>
        refine (HamburgMobility.isPositive h).evaluate_hole_pos_iff.mpr ?_
        exact not_le.mp fun hended => hfit ⟨rfl, .inl ⟨rfl, hended⟩⟩
  case h_4 =>
    obtain ⟨_, -, hbuilt⟩ := bind_eq_ok.mp hbuilt
    cases hbuilt
    exact masetti_pos h (.inl rfl) hfit
  case h_5 =>
    obtain ⟨_, -, hbuilt⟩ := bind_eq_ok.mp hbuilt
    cases hbuilt
    exact (AroraMobility.isPositive h carrier).evaluate_pos doping
  case h_6 =>
    obtain ⟨_, -, hbuilt⟩ := bind_eq_ok.mp hbuilt
    cases hbuilt
    exact (MasettiCanaliMobility.isPositive h carrier).evaluate_pos hefield
      (masetti_pos h (.inr rfl) hfit)
  case h_7 =>
    obtain ⟨pair, hpair, hbuilt⟩ := bind_eq_ok.mp hbuilt
    cases hbuilt
    exact Parameters.pos_of_requirePair hpair carrier
  case h_8 => cases hbuilt

theorem evaluate_nonpos_of_select (h : 0 < temperature)
    (hbuilt : select name temperature parameters hasDoping = .ok m)
    {carrier : Carrier} {efield doping : ℝ}
    (hfit : HasEnded name temperature carrier efield doping)
    (hname : name ≠ "masetti_canali") :
    m.evaluate carrier efield doping ≤ 0 := by
  obtain ⟨rfl, ⟨rfl, hended⟩ | ⟨rfl | rfl, -, hended⟩⟩ := hfit
  · cases hbuilt
    refine not_lt.mp fun hpos => ?_
    have hbelow := (HamburgMobility.isPositive h).evaluate_hole_pos_iff.mp hpos
    exact absurd hbelow (not_lt.mpr hended)
  · obtain ⟨_, -, hbuilt⟩ := bind_eq_ok.mp hbuilt
    cases hbuilt
    exact hended
  · exact absurd rfl hname

/-- A mobility is above zero at every field and every doping that its fit
reaches, and only there.  Its carriers then follow the field under their sign,
and the width of their diffusion is a number. -/
theorem evaluate_pos_unless_ended (h : 0 < temperature)
    (hbuilt : select name temperature parameters hasDoping = .ok m)
    (carrier : Carrier) {efield : ℝ} (hefield : 0 ≤ efield) (doping : ℝ) :
    m.DividesByPositive carrier ∧
    (¬ HasEnded name temperature carrier efield doping →
      0 < m.evaluate carrier efield doping ∧
      (∀ field : Vec3 ℝ, field ≠ 0 → 0 < carrier.sign *
        (drift carrier (m.evaluate carrier efield doping) field).dot field) ∧
      ∀ timestep, 0 ≤ timestep → hasWidth (diffusionVariance
        (m.evaluate carrier efield doping) temperature timestep) = true) ∧
    (HasEnded name temperature carrier efield doping →
      name ≠ "masetti_canali" → m.evaluate carrier efield doping ≤ 0) := by
  refine ⟨dividesByPositive_of_select h hbuilt carrier, ?_,
    evaluate_nonpos_of_select h hbuilt⟩
  intro hfit
  have hpos := evaluate_pos_of_select h hbuilt hefield hfit
  exact ⟨hpos, fun field hfield => sign_mul_drift_pos hpos hfield,
    fun timestep htimestep => hasWidth_of_pos h hpos htimestep⟩

end Select

theorem evaluate_pos_unless_ended_canali :
    select "canali" (300 : ℝ) .standard false =
        .ok (.saturating (.canali 300)) ∧
      ¬ HasEnded "canali" 300 .hole (1 / 100) 0 ∧
      0 < (saturating (.canali (300 : ℝ))).evaluate .hole (1 / 100) 0 := by
  have hbuilt : select "canali" (300 : ℝ) .standard false =
      .ok (.saturating (.canali 300)) := rfl
  have hfit : ¬ HasEnded "canali" 300 .hole (1 / 100) 0 := by
    rintro ⟨-, ⟨hname, -⟩ | ⟨hname | hname, -⟩⟩ <;> revert hname <;> decide
  have hpos := (evaluate_pos_unless_ended (by norm_num) hbuilt .hole
    (by norm_num : (0 : ℝ) ≤ 1 / 100) 0).2.1 hfit
  exact ⟨hbuilt, hfit, hpos.1⟩

/-- Both fits end: the first at a field of 0.05 MV/mm at room temperature, the
second for a doping of 3e15 per cubic centimetre in a lattice of 3e12 K. -/
theorem evaluate_neg_where_ended :
    (∃ m : Mobility ℝ, select "hamburg" 300 .standard false = .ok m ∧
      m.evaluate .hole 0.05 0 < 0 ∧
      hasWidth (diffusionVariance (m.evaluate .hole 0.05 0) 300 1) = false) ∧
    ∃ m : Mobility ℝ, select "masetti" 3e12 .standard true = .ok m ∧
      m.evaluate .hole 0 3e12 < 0 := by
  constructor
  · refine ⟨_, rfl, ?_⟩
    have hpower (y : ℝ) : Scalar.power (300 / 300.0 : ℝ) y = 1 := by
      change (300 / 300.0 : ℝ) ^ y = 1
      norm_num
    have hvalue : HamburgMobility.evaluate (.atTemperature (300 : ℝ)) .hole
        0.05 < 0 := by
      simp only [HamburgMobility.evaluate, HamburgMobility.atTemperature,
        hpower]
      norm_num [cm, mm, volt, megavolt, s, ns]
    exact ⟨hvalue, not_hasWidth_of_neg (by norm_num) hvalue one_pos⟩
  · refine ⟨_, rfl, ?_⟩
    change (CarrierTransport.masetti (3e12 : ℝ)).hole.evaluate 3e12 < 0
    exact masetti_hole_neg le_rfl

end Mobility

end CarrierTransport
