import Mathlib.Analysis.Complex.ExponentialBounds
import Mathlib.Tactic.FieldSimp
import Mathlib.Tactic.Positivity
import CarrierTransport.Proofs.Scalar.Real
import CarrierTransport.Silicon.Mobility

/-!
# Low-field mobility between dopants

The fit adds a floor to what the dopants leave of the lattice mobility and takes
a drop off at the highest dopings.  For electrons the drop is never as large as
the rest.  For holes the floor vanishes at low dopings faster than the drop, and
only the lattice, unless it is very hot, keeps the mobility above zero.
-/

namespace CarrierTransport

open CarrierTransport.Units

theorem mobilityUnit_pos : (0 : ℝ) < mobilityUnit :=
  div_pos (mul_pos cm_pos cm_pos) (mul_pos volt_pos s_pos)

theorem reduced_pos {temperature : ℝ} (h : 0 < temperature) :
    0 < temperature / 300.0 := by
  have hroom : (0 : ℝ) < 300.0 := by norm_num
  exact div_pos h hroom

/-! ## Bounds -/

section Bounds

theorem share_le_share {t x : ℝ} (ht : 0 ≤ t) (h : t ≤ x) :
    t / (1 + t) ≤ x / (1 + x) := by
  rw [div_le_div_iff₀ (by linarith) (by linarith)]
  linarith

theorem exp_natCast_lt {n : ℕ} (hn : n ≠ 0) :
    Real.exp n < 2.7182818286 ^ n := by
  rw [← Real.exp_one_pow]
  exact pow_lt_pow_left₀ Real.exp_one_lt_d9 (Real.exp_pos 1).le hn

theorem tenPower_eq {x y : ℝ} {n : ℤ} (h : x * y = n) :
    ((10 : ℝ) ^ x) ^ y = 10 ^ n := by
  rw [← Real.rpow_mul (by norm_num), h, Real.rpow_intCast]

/-- An exponential stays below a square that starts above it for some time. -/
theorem exp_lt_square {v : ℝ} (hpos : 0 < v) (hle : v ≤ 20) :
    29 * Real.exp v < 44.9 * (1 + (6600 * v) ^ 2) := by
  have hfifteen := exp_natCast_lt (n := 15) (by norm_num)
  have htwenty := exp_natCast_lt (n := 20) (by norm_num)
  norm_num at hfifteen htwenty
  obtain hsmall | hlarge := le_or_gt v (1 / 3)
  · have hcube : Real.exp (1 / 3) < 1.5 := by
      refine lt_of_pow_lt_pow_left₀ 3 (by norm_num) ?_
      rw [← Real.exp_nat_mul]
      norm_num
      linarith [Real.exp_one_lt_d9]
    have hexp := Real.exp_le_exp.mpr hsmall
    nlinarith [sq_nonneg (6600 * v)]
  · obtain hmiddle | hfar := le_or_gt v 15
    · have hexp := Real.exp_le_exp.mpr hmiddle
      have hsquare : (2200 : ℝ) ^ 2 ≤ (6600 * v) ^ 2 :=
        pow_le_pow_left₀ (by norm_num) (by linarith) 2
      linarith
    · have hexp := Real.exp_le_exp.mpr hle
      have hsquare : (99000 : ℝ) ^ 2 ≤ (6600 * v) ^ 2 :=
        pow_le_pow_left₀ (by norm_num) (by linarith) 2
      linarith

theorem one_sub_share {x : ℝ} (hx : 0 ≤ x) : 1 - 1 / (1 + x) = x / (1 + x) := by
  rw [one_sub_div (by linarith), add_sub_cancel_left]

theorem share_of_square_le {y z : ℝ} (hy : 0 ≤ y) (h : y ≤ z) :
    1 / (1 + z ^ 2) ≤ 1 / (1 + y ^ 2) :=
  one_div_le_one_div_of_le (by positivity)
    (by linarith [pow_le_pow_left₀ hy h 2])

/-- What high dopings take is less than what is left of the floor: at low
dopings a square is below a root, and at high ones the floor is almost whole. -/
theorem loss_lt_floor {r k : ℝ} (hr : 0 < r) (hk : 100 ≤ k) :
    43.4 * (1 / (1 + (k / r) ^ 2)) <
      52.2 * (1 - 1 / (1 + r ^ (0.680 : ℝ))) := by
  rw [one_sub_share (Real.rpow_nonneg hr.le _)]
  obtain hlow | hbeyond := le_or_gt r 1
  · have hpower := Real.rpow_le_rpow_of_exponent_ge hr hlow
      (by norm_num : (0.680 : ℝ) ≤ 1)
    rw [Real.rpow_one] at hpower
    have hfloor := share_le_share hr.le hpower
    have hhalf : r / 2 ≤ r / (1 + r) :=
      div_le_div_of_nonneg_left hr.le (by linarith) (by linarith)
    have hratio : 100 / r ≤ k / r := div_le_div_of_nonneg_right hk hr.le
    have hloss : 1 / (1 + (k / r) ^ 2) ≤ r / 10000 := by
      calc 1 / (1 + (k / r) ^ 2)
        _ ≤ 1 / (1 + (100 / r) ^ 2) :=
            share_of_square_le (by positivity) hratio
        _ ≤ 1 / (100 / r) ^ 2 :=
            one_div_le_one_div_of_le (by positivity) (by linarith)
        _ = r ^ 2 / 10000 := by
            field_simp
            norm_num
        _ ≤ r / 10000 := by nlinarith
    linarith
  · obtain hmiddle | hhigh := le_or_gt r k
    · have hpower := Real.one_le_rpow hbeyond.le
        (by norm_num : (0 : ℝ) ≤ 0.680)
      have hfloor := share_le_share zero_le_one hpower
      have hloss := share_of_square_le zero_le_one ((one_le_div hr).mpr hmiddle)
      norm_num at hfloor hloss ⊢
      linarith
    · have hpower : 10 ≤ r ^ (0.680 : ℝ) := by
        calc (10 : ℝ)
          _ = √(10 * 10) := (Real.sqrt_mul_self (by norm_num)).symm
          _ = 100 ^ (1 / 2 : ℝ) := by
              rw [Real.sqrt_eq_rpow]
              norm_num
          _ ≤ 100 ^ (0.680 : ℝ) :=
              Real.rpow_le_rpow_of_exponent_le (by norm_num) (by norm_num)
          _ ≤ r ^ (0.680 : ℝ) :=
              Real.rpow_le_rpow (by norm_num) (hk.trans hhigh.le) (by norm_num)
      have hfloor := share_le_share (by norm_num) hpower
      have hloss := share_of_square_le le_rfl
        (div_nonneg (by linarith : 0 ≤ k) hr.le)
      norm_num at hfloor hloss ⊢
      linarith

/-- What high dopings take of the mobility of holes is less than their floor
while the exponential is no smaller than a square. -/
theorem loss_lt_exp {v k : ℝ} (hpos : 0 < v) (hle : v ≤ 20) (hk : 6600 ≤ k) :
    29 * (1 / (1 + (k * v) ^ 2)) < 44.9 * Real.exp (-v) := by
  have hsquare := share_of_square_le (mul_nonneg (by norm_num) hpos.le)
    (mul_le_mul_of_nonneg_right hk hpos.le)
  have hbelow : 29 * (1 / (1 + (6600 * v) ^ 2)) < 44.9 * Real.exp (-v) := by
    have hexp := exp_lt_square hpos hle
    rw [Real.exp_neg, ← div_eq_mul_inv, mul_one_div,
      div_lt_div_iff₀ (by positivity) (Real.exp_pos v)]
    exact hexp
  linarith

/-- Beyond that the dopings are so low that they take less than a lattice leaves
that is as hot as `3 * 10 ^ 7` kelvin. -/
theorem loss_lt_lattice {v k r x : ℝ} (hv : 20 < v) (hk : 6600 ≤ k)
    (hr : 1e-11 ≤ r) (hx : 1 / 2 ≤ x) :
    29 * (1 / (1 + (k * v) ^ 2)) < 470.5 * r * x := by
  have hsquare := share_of_square_le (by norm_num : (0 : ℝ) ≤ 6600 * 20)
    (mul_le_mul hk hv.le (by norm_num) (by linarith))
  have hlattice : 1e-11 * (1 / 2) ≤ r * x :=
    mul_le_mul hr hx (by norm_num) (by linarith)
  norm_num at hsquare hlattice ⊢
  linarith

end Bounds

/-! ## Fits -/

namespace MasettiFit

variable (fit : MasettiFit ℝ) {doping : ℝ}

/-- The share of the lattice mobility that is left at a doping. -/
noncomputable def rest (n : ℝ) : ℝ :=
  1 / (1 + (n / fit.middleDoping) ^ fit.middleExponent)

/-- The share of the drop that is taken off at a doping. -/
noncomputable def loss (n : ℝ) : ℝ := 1 / (1 + (fit.highDoping / n) ^ 2)

theorem evaluate_zero : fit.evaluate 0 = fit.lattice := by
  have htest : (|(0 : ℝ)| == 0.0) = true := by
    refine decide_eq_true ?_
    norm_num
  exact if_pos htest

theorem evaluate_eq (hdoping : doping ≠ 0)
    (hexponent : fit.highExponent = 2.0) :
    fit.evaluate doping =
      (if fit.floorDoping > 0.0 then
        fit.floorLow * Real.exp (-fit.floorDoping / |doping|)
      else fit.floorLow) + (fit.lattice - fit.floorHigh) * fit.rest |doping| -
        fit.drop * fit.loss |doping| := by
  have htest : ¬ (|doping| == 0.0) = true := by
    rw [Bool.not_eq_true]
    refine decide_eq_false ?_
    norm_num
    exact hdoping
  have hsquare (x : ℝ) : Scalar.power x 2.0 = x ^ 2 := by
    have htwo : (2.0 : ℝ) = (2 : ℕ) := by norm_num
    rw [htwo]
    exact Real.rpow_natCast x 2
  refine (if_neg htest).trans ?_
  rw [hexponent, hsquare, decimal_one, rest, loss, mul_one_div, mul_one_div]
  rfl

end MasettiFit

section Fits

variable {temperature : ℝ}

theorem masetti_lattice_pos (h : 0 < temperature) (carrier : Carrier) :
    0 < ((masetti temperature).get carrier).lattice := by
  have hpower (y : ℝ) := Scalar.power_pos (reduced_pos h) y
  have hunit := mobilityUnit_pos
  cases carrier with
  | electron => exact mul_pos (by positivity) (hpower _)
  | hole => exact mul_pos (by positivity) (hpower _)

theorem masetti_electron_eq {doping : ℝ} (hdoping : doping ≠ 0) :
    (masetti temperature).electron.evaluate doping =
      mobilityUnit * (52.2 * (1 -
          1 / (1 + (|doping| / (9.68e16 * perCm3)) ^ (0.680 : ℝ))) +
        1414 * Scalar.power (temperature / 300.0) (-2.5) *
          (1 / (1 + (|doping| / (9.68e16 * perCm3)) ^ (0.680 : ℝ))) -
        43.4 * (1 / (1 + (3.43e20 / 9.68e16 /
          (|doping| / (9.68e16 * perCm3))) ^ 2))) := by
  have hcm3 := perCm3_pos
  have hlattice : (1414.0 : ℝ) = 1414 := by norm_num
  have hoff : ¬ (masetti temperature).electron.floorDoping > 0.0 := lt_irrefl _
  have hhigh : 3.43e20 * perCm3 / |doping| =
      3.43e20 / 9.68e16 / (|doping| / (9.68e16 * perCm3)) := by
    field_simp
  rw [MasettiFit.evaluate_eq _ hdoping rfl, MasettiFit.rest, MasettiFit.loss,
    if_neg hoff]
  simp only [masetti]
  rw [hhigh, hlattice]
  ring

theorem masetti_electron_pos (h : 0 < temperature) (doping : ℝ) :
    0 < (masetti temperature).electron.evaluate doping := by
  obtain rfl | hdoping := eq_or_ne doping 0
  · rw [MasettiFit.evaluate_zero]
    exact masetti_lattice_pos h .electron
  · have hpos := abs_pos.mpr hdoping
    have hcm3 := perCm3_pos
    have hloss := loss_lt_floor
      (by positivity : 0 < |doping| / (9.68e16 * perCm3))
      (by norm_num : (100 : ℝ) ≤ 3.43e20 / 9.68e16)
    have hpower := Scalar.power_pos (reduced_pos h) (-2.5)
    have hrest : 0 < 1414 * Scalar.power (temperature / 300.0) (-2.5) *
        (1 / (1 + (|doping| / (9.68e16 * perCm3)) ^ (0.680 : ℝ))) := by
      positivity
    rw [masetti_electron_eq hdoping]
    exact mul_pos mobilityUnit_pos (by linarith)

/-- The hottest lattice whose holes are seen to move at every doping. -/
noncomputable def hottestLattice : ℝ := 3e7

theorem le_latticePower (h : 0 < temperature)
    (hle : temperature ≤ hottestLattice) :
    1e-11 ≤ Scalar.power (temperature / 300.0) (-2.2) := by
  have hreduced : temperature / 300.0 ≤ 10 ^ (5 : ℝ) := by
    rw [hottestLattice] at hle
    norm_num
    linarith
  have hpower := Real.rpow_le_rpow_of_nonpos (reduced_pos h) hreduced
    (by norm_num : (-2.2 : ℝ) ≤ 0)
  rw [tenPower_eq (n := -11) (by norm_num)] at hpower
  exact hpower.trans' (by norm_num)

theorem masetti_hole_eq {doping : ℝ} (hdoping : doping ≠ 0) :
    (masetti temperature).hole.evaluate doping =
      mobilityUnit * (44.9 * Real.exp (-(9.23e16 * perCm3 / |doping|)) +
        470.5 * Scalar.power (temperature / 300.0) (-2.2) *
          (1 / (1 + (|doping| / (2.23e17 * perCm3)) ^ (0.719 : ℝ))) -
        29 * (1 / (1 + (6.10e20 / 9.23e16 *
          (9.23e16 * perCm3 / |doping|)) ^ 2))) := by
  have hcm3 := perCm3_pos
  have hdrop : (29.0 : ℝ) = 29 := by norm_num
  have hon : (masetti temperature).hole.floorDoping > 0.0 := by
    rw [gt_iff_lt, decimal_zero]
    exact mul_pos (by norm_num) hcm3
  have hhigh : 6.10e20 * perCm3 / |doping| =
      6.10e20 / 9.23e16 * (9.23e16 * perCm3 / |doping|) := by
    rw [div_mul_div_comm, mul_left_comm, mul_div_mul_left _ _ (by norm_num)]
  rw [MasettiFit.evaluate_eq _ hdoping rfl, MasettiFit.rest, MasettiFit.loss,
    if_pos hon]
  simp only [masetti]
  rw [hhigh, decimal_zero, hdrop, neg_div]
  ring

theorem masetti_hole_pos (h : 0 < temperature)
    (hle : temperature ≤ hottestLattice) (doping : ℝ) :
    0 < (masetti temperature).hole.evaluate doping := by
  obtain rfl | hdoping := eq_or_ne doping 0
  · rw [MasettiFit.evaluate_zero]
    exact masetti_lattice_pos h .hole
  · have hcm3 := perCm3_pos
    have hpos := abs_pos.mpr hdoping
    have hratio : (6600 : ℝ) ≤ 6.10e20 / 9.23e16 := by norm_num
    have hreduced := le_latticePower h hle
    rw [masetti_hole_eq hdoping]
    refine mul_pos mobilityUnit_pos ?_
    obtain hshort | hlong := le_or_gt (9.23e16 * perCm3 / |doping|) 20
    · have hloss := loss_lt_exp (by positivity) hshort hratio
      have hrest : 0 < 470.5 * Scalar.power (temperature / 300.0) (-2.2) *
          (1 / (1 + (|doping| / (2.23e17 * perCm3)) ^ (0.719 : ℝ))) := by
        have hpower := Scalar.power_pos (reduced_pos h) (-2.2)
        positivity
      linarith
    · have hlow : |doping| / (2.23e17 * perCm3) ≤ 1 := by
        rw [lt_div_iff₀ hpos] at hlong
        rw [div_le_one (by positivity)]
        linarith
      have hpower := Real.rpow_le_one (by positivity) hlow
        (by norm_num : (0 : ℝ) ≤ 0.719)
      have hrest : 1 / 2 ≤
          1 / (1 + (|doping| / (2.23e17 * perCm3)) ^ (0.719 : ℝ)) :=
        one_div_le_one_div_of_le (by positivity) (by linarith)
      have hloss := loss_lt_lattice hlong hratio hreduced hrest
      have hfloor := Real.exp_pos (-(9.23e16 * perCm3 / |doping|))
      linarith

theorem latticePower_le (h : 3e12 ≤ temperature) :
    Scalar.power (temperature / 300.0) (-2.2) ≤ 1e-22 := by
  have hreduced : (10 : ℝ) ^ (10 : ℝ) ≤ temperature / 300.0 := by
    norm_num at h ⊢
    linarith
  have hpower := Real.rpow_le_rpow_of_nonpos (by positivity) hreduced
    (by norm_num : (-2.2 : ℝ) ≤ 0)
  rw [tenPower_eq (n := -22) (by norm_num)] at hpower
  exact hpower.trans (by norm_num)

/-- At a doping of 3e15 per cubic centimetre and `3 * 10 ^ 12` kelvin neither
the floor nor the lattice makes up for what high dopings take. -/
theorem masetti_hole_neg (h : 3e12 ≤ temperature) :
    (masetti temperature).hole.evaluate 3e12 < 0 := by
  have hcm3 := perCm3_pos
  have hrarity : 9.23e16 * perCm3 / |(3e12 : ℝ)| = 923 / 30 := by
    norm_num [perCm3, cm, mm]
  have hexp : Real.exp (-(923 / 30)) < 1e-12 := by
    have hthirty : (1e12 : ℝ) < Real.exp 30 := by
      have hpow := pow_lt_pow_left₀ Real.exp_one_gt_d9 (by norm_num)
        (by norm_num : 30 ≠ 0)
      rw [Real.exp_one_pow] at hpow
      norm_num at hpow ⊢
      linarith
    calc Real.exp (-(923 / 30))
      _ ≤ Real.exp (-30) := Real.exp_le_exp.mpr (by norm_num)
      _ = (Real.exp 30)⁻¹ := Real.exp_neg 30
      _ < 1e12⁻¹ := inv_strictAnti₀ (by norm_num) hthirty
      _ = 1e-12 := by norm_num
  have hrest :
      1 / (1 + (|(3e12 : ℝ)| / (2.23e17 * perCm3)) ^ (0.719 : ℝ)) ≤ 1 :=
    div_le_one_of_le₀
      (le_add_of_nonneg_right (Real.rpow_nonneg (by positivity) _))
      (by positivity)
  have hlattice := mul_le_mul (latticePower_le h) hrest (by positivity)
    (by norm_num)
  rw [masetti_hole_eq (by norm_num), hrarity]
  refine mul_neg_of_pos_of_neg mobilityUnit_pos ?_
  have hloss : (1e-10 : ℝ) <
      29 * (1 / (1 + (6.10e20 / 9.23e16 * (923 / 30)) ^ 2)) := by
    norm_num
  norm_num at hexp hlattice hloss ⊢
  linarith

end Fits

end CarrierTransport
