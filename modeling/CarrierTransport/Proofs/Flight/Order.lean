import Mathlib.Algebra.Algebra.Rat
import Mathlib.Algebra.Ring.Divisibility.Lemmas
import CarrierTransport.Proofs.Flight.Flow

/-!
# Orders of Runge-Kutta methods

The stages of a method are compared with the solution at their nodes.  If every
stage but one is of order two, the slopes at the stages are those of the
solution up to terms that some sums of weights let cancel, and a few such sums
make the step one of order four or five.
-/

namespace CarrierTransport

open MvPolynomial (aeval pderiv)
open PowerSeries (coeff rescale)
open scoped PowerSeries

variable {ι : Type} [Fintype ι] {κ : Type} [Fintype κ]

/-- The nodes of the stages, and what each stage weighs in the others. -/
structure ButcherMatrix (κ : Type) where
  node : κ → ℚ
  weight : κ → κ → ℚ

theorem dvd_sum_smul {w : κ → ℚ} {v : κ → ℚ⟦X⟧} {a : ℚ⟦X⟧}
    (h : ∀ i, w i = 0 ∨ a ∣ v i) : a ∣ ∑ i, w i • v i := by
  refine Finset.dvd_sum fun i _ => ?_
  obtain hzero | hdvd := h i
  · rw [hzero, zero_smul]
    exact dvd_zero a
  · exact dvd_smul_of_dvd (w i) hdvd

theorem sum_smul_comm (w : κ → ℚ) (a : ι → ℚ) (e : κ → ι → ℚ⟦X⟧) :
    ∑ i, w i • ∑ m, a m • e i m = ∑ m, a m • ∑ i, w i • e i m := by
  simp only [Finset.smul_sum]
  rw [Finset.sum_comm]
  exact Finset.sum_congr rfl fun m _ => Finset.sum_congr rfl fun i _ =>
    smul_comm _ _ _

namespace ButcherMatrix

/-! ## Steps and stages -/

section Stages

variable {R : Type} [CommRing R] [Algebra ℚ R]

/-- How far a step of length `h` goes whose slopes are taken at the places `Y`
and weighed by `w`. -/
noncomputable def increment (h : R) (w : κ → ℚ) (g : System ι) (Y : κ → ι → R)
    (l : ι) : R :=
  h * ∑ i, w i • aeval (Y i) (g l)

/-- The places at which the stages of a step are taken, from the start `z`. -/
def AreStages (S : ButcherMatrix κ) (g : System ι) (z : ι → ℚ) (h : R)
    (Y : κ → ι → R) : Prop :=
  ∀ i l, Y i l = algebraMap ℚ R (z l) + increment h (S.weight i) g Y l

omit [Fintype ι] in
theorem increment_sub (h : R) (w : κ → ℚ) (g : System ι) (Y Z : κ → ι → R)
    (l : ι) : increment h w g Y l - increment h w g Z l =
      h * ∑ i, w i • (aeval (Y i) (g l) - aeval (Z i) (g l)) := by
  simp only [increment, smul_sub, Finset.sum_sub_distrib, mul_sub]

variable {R' : Type} [CommRing R'] [Algebra ℚ R']

omit [Fintype ι] in
theorem map_increment (φ : R →ₐ[ℚ] R') (h : R) (w : κ → ℚ) (g : System ι)
    (Y : κ → ι → R) (l : ι) :
    φ (increment h w g Y l) = increment (φ h) w g (fun i l => φ (Y i l)) l := by
  simp only [increment, map_mul, map_sum, map_smul,
    MvPolynomial.comp_aeval_apply]

/-- The stages of an explicit method, each from those before it. -/
noncomputable def stages {n : ℕ} (S : ButcherMatrix (Fin n)) (g : System ι)
    (z : ι → ℚ) (h : R) (i : Fin n) (l : ι) : R :=
  algebraMap ℚ R (z l) + h * ∑ j, if _ : j < i then
    S.weight i j • aeval (fun l => stages S g z h j l) (g l) else 0
termination_by i

/-- A stage weighs nothing in itself and in those before it. -/
def Explicit {n : ℕ} (S : ButcherMatrix (Fin n)) : Prop :=
  ∀ i j, i ≤ j → S.weight i j = 0

variable {n : ℕ} {S : ButcherMatrix (Fin n)} {g : System ι} {z : ι → ℚ}

omit [Fintype ι] in
theorem Explicit.areStages (hS : S.Explicit) (h : R) :
    S.AreStages g z h (S.stages g z h) := by
  intro i l
  rw [stages, increment]
  congr 2
  refine Finset.sum_congr rfl fun j _ => ?_
  split
  · rfl
  · rename_i hle
    rw [hS i j (not_lt.mp hle), zero_smul]

omit [Fintype ι] in
theorem map_stages (φ : R →ₐ[ℚ] R') (h : R) (i : Fin n) (l : ι) :
    φ (S.stages g z h i l) = S.stages g z (φ h) i l := by
  induction i using WellFoundedLT.induction generalizing l with
  | _ i ih =>
      rw [stages, stages, map_add, AlgHom.commutes, map_mul, map_sum]
      congr 2
      refine Finset.sum_congr rfl fun j _ => ?_
      split
      · rename_i hlt
        rw [map_smul, MvPolynomial.comp_aeval_apply]
        congr 2
        exact congrArg aeval (funext (ih j hlt))
      · exact map_zero φ

end Stages

/-! ## Defects -/

variable (S : ButcherMatrix κ)

/-- By how much the weights `w` fail to integrate the power `k` up to `s`. -/
def defect (w : κ → ℚ) (s : ℚ) (k : ℕ) : ℚ :=
  s ^ (k + 1) - (k + 1) * ∑ j, w j * S.node j ^ k

/-- The defect of the weights of a stage up to its node. -/
def stageDefect (i : κ) (k : ℕ) : ℚ := S.defect (S.weight i) (S.node i) k

/-- What the weights `w` of the stages give to a slope by way of the stages. -/
def through (w : κ → ℚ) (j : κ) : ℚ := ∑ i, w i * S.weight i j

theorem sum_through {M : Type} [AddCommGroup M] [Module ℚ M] (w : κ → ℚ)
    (e : κ → M) :
    ∑ i, w i • ∑ j, S.weight i j • e j = ∑ j, S.through w j • e j := by
  simp only [Finset.smul_sum, smul_smul, through, Finset.sum_smul]
  exact Finset.sum_comm

section Residuals

variable (g : System ι) (z : ι → ℚ)

/-- What is left of the solution at `s` after an increment with slopes of the
solution. -/
noncomputable def residual (w : κ → ℚ) (s : ℚ) (l : ι) : ℚ⟦X⟧ :=
  g.later z s l - .C (z l) -
    increment .X w g (fun j => g.later z (S.node j)) l

theorem coeff_zero_residual (w : κ → ℚ) (s : ℚ) (l : ι) :
    coeff 0 (S.residual g z w s l) = 0 := by
  rw [residual, increment, System.later, map_sub, map_sub,
    PowerSeries.coeff_rescale, g.coeff_zero_solution, pow_zero, one_mul,
    PowerSeries.coeff_zero_C, PowerSeries.coeff_zero_X_mul, sub_self, sub_zero]

theorem coeff_succ_residual (w : κ → ℚ) (s : ℚ) (l : ι) (k : ℕ) :
    coeff (k + 1) (S.residual g z w s l) =
      S.defect w s k * coeff (k + 1) (g.solution z l) := by
  have hslope : coeff k (g.flow z (g l)) =
      coeff (k + 1) (g.solution z l) * (k + 1) := by
    rw [← PowerSeries.coeff_derivative, g.derivative_solution]
  simp only [residual, increment, System.later, System.aeval_later, map_sub,
    map_sum, PowerSeries.coeff_rescale, PowerSeries.coeff_succ_X_mul,
    PowerSeries.coeff_C, map_smul, hslope, defect, smul_eq_mul]
  rw [if_neg (Nat.succ_ne_zero k), sub_zero, sub_mul, mul_assoc, Finset.sum_mul,
    Finset.mul_sum]
  refine congrArg _ (Finset.sum_congr rfl fun j _ => ?_)
  ring

theorem dvd_residual {w : κ → ℚ} {s : ℚ} {n : ℕ}
    (h : ∀ k < n, S.defect w s k = 0) (l : ι) :
    .X ^ (n + 1) ∣ S.residual g z w s l := by
  rw [PowerSeries.X_pow_dvd_iff]
  intro k hk
  cases k with
  | zero => exact S.coeff_zero_residual g z w s l
  | succ k => rw [coeff_succ_residual, h k (by omega), zero_mul]

/-- The residuals of the stages cancel as far as their defects do. -/
theorem dvd_sum_residual {w : κ → ℚ} {n : ℕ}
    (h : ∀ k < n, ∑ i, w i * S.stageDefect i k = 0) (l : ι) :
    .X ^ (n + 1) ∣
      ∑ i, w i • S.residual g z (S.weight i) (S.node i) l := by
  rw [PowerSeries.X_pow_dvd_iff]
  intro k hk
  rw [map_sum]
  cases k with
  | zero => simp only [map_smul, coeff_zero_residual, smul_zero,
      Finset.sum_const_zero]
  | succ k =>
      unfold stageDefect at h
      simp only [map_smul, coeff_succ_residual, smul_eq_mul, ← mul_assoc,
        ← Finset.sum_mul]
      rw [h k (by omega), zero_mul]

end Residuals

/-! ## Errors -/

section Errors

variable (g : System ι) (z : ι → ℚ) (Y : κ → ι → ℚ⟦X⟧)

/-- How far a stage is from the solution. -/
noncomputable def lag (i : κ) (l : ι) : ℚ⟦X⟧ := Y i l - g.later z (S.node i) l

/-- How far the slope at a stage is from that of the solution. -/
noncomputable def slopeLag (i : κ) (l : ι) : ℚ⟦X⟧ :=
  aeval (Y i) (g l) - aeval (g.later z (S.node i)) (g l)

variable {g z Y}

theorem lag_eq (hY : S.AreStages g z .X Y) (i : κ) (l : ι) :
    S.lag g z Y i l = .X * ∑ j, S.weight i j • S.slopeLag g z Y j l -
      S.residual g z (S.weight i) (S.node i) l := by
  have hstart : algebraMap ℚ ℚ⟦X⟧ (z l) = .C (z l) := rfl
  have hslopes := increment_sub .X (S.weight i) g Y
    (fun j => g.later z (S.node j)) l
  simp only [slopeLag]
  rw [lag, residual, hY i l, ← hslopes, hstart]
  ring

theorem sum_lag (hY : S.AreStages g z .X Y) (w : κ → ℚ) (l : ι) :
    ∑ i, w i • S.lag g z Y i l =
      .X * ∑ j, S.through w j • S.slopeLag g z Y j l -
        ∑ i, w i • S.residual g z (S.weight i) (S.node i) l := by
  rw [← sum_through, Finset.mul_sum, ← Finset.sum_sub_distrib]
  refine Finset.sum_congr rfl fun i _ => ?_
  rw [S.lag_eq hY, smul_sub, mul_smul_comm]

omit [Fintype κ] in
theorem dvd_slopeLag {a : ℚ⟦X⟧} {i : κ} (h : ∀ l, a ∣ S.lag g z Y i l)
    (l : ι) : a ∣ S.slopeLag g z Y i l :=
  dvd_aeval_sub h (g l)

/-- Every stage but one is of order two. -/
structure SecondOrder (exempt : κ) : Prop where
  row : ∀ i, S.stageDefect i 0 = 0
  moment : ∀ i, i ≠ exempt → S.stageDefect i 1 = 0

/-- The weights `w` give nothing to the exempt stage by way of the stages, and
the defects of the stages cancel under them below the order `n`. -/
structure Cancels (exempt : κ) (w : κ → ℚ) (n : ℕ) : Prop where
  through : S.through w exempt = 0
  defects : ∀ k < n, ∑ i, w i * S.stageDefect i k = 0

instance [DecidableEq κ] (exempt : κ) : Decidable (S.SecondOrder exempt) :=
  decidable_of_iff ((∀ i, S.stageDefect i 0 = 0) ∧
    ∀ i, i ≠ exempt → S.stageDefect i 1 = 0)
    ⟨fun h => ⟨h.1, h.2⟩, fun h => ⟨h.row, h.moment⟩⟩

instance (exempt : κ) (w : κ → ℚ) (n : ℕ) : Decidable (S.Cancels exempt w n) :=
  decidable_of_iff (S.through w exempt = 0 ∧
    ∀ k < n, ∑ i, w i * S.stageDefect i k = 0)
    ⟨fun h => ⟨h.1, h.2⟩, fun h => ⟨h.through, h.defects⟩⟩

variable {S} {exempt : κ} {w : κ → ℚ}

theorem Cancels.dvd_sum_lag {n : ℕ} (hw : S.Cancels exempt w (n + 1))
    (hY : S.AreStages g z .X Y)
    (h : ∀ l, .X ^ (n + 1) ∣ ∑ i, S.through w i • S.slopeLag g z Y i l)
    (l : ι) : .X ^ (n + 2) ∣ ∑ i, w i • S.lag g z Y i l := by
  rw [S.sum_lag hY]
  refine dvd_sub ?_ (S.dvd_sum_residual g z hw.defects l)
  rw [pow_succ']
  exact mul_dvd_mul_left _ (h l)

namespace SecondOrder

variable (hS : S.SecondOrder exempt) (hY : S.AreStages g z .X Y)
include hS hY

theorem sq_dvd_lag (i : κ) (l : ι) : .X ^ 2 ∣ S.lag g z Y i l := by
  have hresidual (i : κ) (l : ι) :
      .X ^ 2 ∣ S.residual g z (S.weight i) (S.node i) l := by
    refine S.dvd_residual g z (fun k hk => ?_) l
    obtain rfl : k = 0 := by omega
    exact hS.row i
  have hfirst (i : κ) (l : ι) : .X ∣ S.lag g z Y i l := by
    rw [S.lag_eq hY]
    exact dvd_sub (dvd_mul_right _ _)
      ((dvd_pow_self _ two_ne_zero).trans (hresidual i l))
  rw [S.lag_eq hY]
  refine dvd_sub ?_ (hresidual i l)
  rw [pow_two]
  exact mul_dvd_mul_left _ (dvd_sum_smul fun j =>
    .inr (S.dvd_slopeLag (hfirst j) l))

theorem cube_dvd_lag {i : κ} (hi : i ≠ exempt) (l : ι) :
    .X ^ 3 ∣ S.lag g z Y i l := by
  have hresidual : .X ^ 3 ∣ S.residual g z (S.weight i) (S.node i) l := by
    refine S.dvd_residual g z (fun k hk => ?_) l
    obtain rfl | rfl : k = 0 ∨ k = 1 := by omega
    · exact hS.row i
    · exact hS.moment i hi
  rw [S.lag_eq hY]
  refine dvd_sub ?_ hresidual
  rw [pow_succ']
  exact mul_dvd_mul_left _ (dvd_sum_smul fun j =>
    .inr (S.dvd_slopeLag (hS.sq_dvd_lag hY j) l))

theorem dvd_sum_lag_four (hw : S.Cancels exempt w 3) (l : ι) :
    .X ^ 4 ∣ ∑ i, w i • S.lag g z Y i l := by
  refine hw.dvd_sum_lag hY (fun l => dvd_sum_smul fun i => ?_) l
  by_cases hi : i = exempt
  · exact .inl (hi ▸ hw.through)
  · exact .inr (S.dvd_slopeLag (hS.cube_dvd_lag hY hi) l)

/-- Where a stage is of order two, its slope is off by the derivative in the
direction in which the stage is off. -/
theorem dvd_slopeLag_sub {i : κ} (hi : i ≠ exempt) (l : ι) :
    .X ^ 6 ∣ S.slopeLag g z Y i l -
      directional (g.later z (S.node i)) (S.lag g z Y i) (g l) := by
  have hsquare := sq_dvd_aeval_sub (Y := Y i) (Z := g.later z (S.node i))
    (hS.cube_dvd_lag hY hi) (g l)
  rwa [← pow_mul] at hsquare

theorem dvd_sum_slopeLag_four (hzero : w exempt = 0)
    (hw : S.Cancels exempt w 3) (l : ι) :
    .X ^ 4 ∣ ∑ i, w i • S.slopeLag g z Y i l := by
  have hsplit : ∑ i, w i • S.slopeLag g z Y i l =
      ∑ i, w i • (S.slopeLag g z Y i l -
        ∑ m, g.gradient z 0 (g l) m • S.lag g z Y i m) +
      ∑ m, g.gradient z 0 (g l) m • ∑ i, w i • S.lag g z Y i m := by
    simp only [smul_sub, Finset.sum_sub_distrib]
    rw [sum_smul_comm, sub_add_cancel]
  rw [hsplit]
  refine dvd_add (dvd_sum_smul fun i => ?_)
    (dvd_sum_smul fun m => .inr (hS.dvd_sum_lag_four hY hw m))
  by_cases hi : i = exempt
  · exact .inl (hi ▸ hzero)
  · have hlinear := g.dvd_directional_sub z (hS.cube_dvd_lag hY hi) (S.node i)
      (g l)
    have hquadratic := (pow_dvd_pow _ (by norm_num : 4 ≤ 6)).trans
      (hS.dvd_slopeLag_sub hY hi l)
    have hadd := dvd_add hquadratic hlinear
    rw [sub_add_sub_cancel] at hadd
    exact .inr hadd

theorem dvd_sum_lag_five (hw : S.Cancels exempt w 4)
    (hthrough : S.Cancels exempt (S.through w) 3) (l : ι) :
    .X ^ 5 ∣ ∑ i, w i • S.lag g z Y i l :=
  hw.dvd_sum_lag hY (hS.dvd_sum_slopeLag_four hY hw.through hthrough) l

theorem dvd_sum_slopeLag_five (hzero : w exempt = 0)
    (hw : S.Cancels exempt w 4) (hthrough : S.Cancels exempt (S.through w) 3)
    (hnode : S.Cancels exempt (fun i => w i * S.node i) 3) (l : ι) :
    .X ^ 5 ∣ ∑ i, w i • S.slopeLag g z Y i l := by
  have hsplit : ∑ i, w i • S.slopeLag g z Y i l =
      ∑ i, w i • (S.slopeLag g z Y i l -
        (∑ m, g.gradient z 0 (g l) m • S.lag g z Y i m +
          .X * ∑ m, (S.node i * g.gradient z 1 (g l) m) • S.lag g z Y i m)) +
      (∑ m, g.gradient z 0 (g l) m • ∑ i, w i • S.lag g z Y i m +
        .X * ∑ m, g.gradient z 1 (g l) m •
          ∑ i, (w i * S.node i) • S.lag g z Y i m) := by
    have hsecond : ∑ i, w i • (.X * ∑ m, (S.node i * g.gradient z 1 (g l) m) •
          S.lag g z Y i m : ℚ⟦X⟧) =
        .X * ∑ m, g.gradient z 1 (g l) m •
          ∑ i, (w i * S.node i) • S.lag g z Y i m := by
      rw [← sum_smul_comm, Finset.mul_sum]
      refine Finset.sum_congr rfl fun i _ => ?_
      simp only [mul_smul, ← Finset.smul_sum, mul_smul_comm]
    simp only [smul_sub, smul_add, Finset.sum_sub_distrib,
      Finset.sum_add_distrib]
    rw [hsecond, sum_smul_comm, sub_add_cancel]
  rw [hsplit]
  refine dvd_add (dvd_sum_smul fun i => ?_) (dvd_add
    (dvd_sum_smul fun m => .inr (hS.dvd_sum_lag_five hY hw hthrough m)) ?_)
  · by_cases hi : i = exempt
    · exact .inl (hi ▸ hzero)
    · have hlinear := g.dvd_directional_sub_two z (hS.cube_dvd_lag hY hi)
        (S.node i) (g l)
      have hquadratic := (pow_dvd_pow _ (by norm_num : 5 ≤ 6)).trans
        (hS.dvd_slopeLag_sub hY hi l)
      have hadd := dvd_add hquadratic hlinear
      rw [sub_add_sub_cancel] at hadd
      exact .inr hadd
  · rw [pow_succ']
    exact mul_dvd_mul_left _ (dvd_sum_smul fun m =>
      .inr (hS.dvd_sum_lag_four hY hnode m))

end SecondOrder

/-! ## Orders -/

variable (S exempt w) in
/-- The weights `w` make a step of order four. -/
structure OrderFour : Prop where
  omits : w exempt = 0
  cancels : S.Cancels exempt w 3
  quadrature : ∀ k < 4, S.defect w 1 k = 0

variable (S exempt w) in
/-- The weights `w` make a step of order five. -/
structure OrderFive : Prop where
  omits : w exempt = 0
  cancels : S.Cancels exempt w 4
  through : S.Cancels exempt (S.through w) 3
  nodes : S.Cancels exempt (fun i => w i * S.node i) 3
  quadrature : ∀ k < 5, S.defect w 1 k = 0

variable (S w) in
theorem increment_sub_solution (l : ι) :
    increment .X w g Y l - (g.solution z l - .C (z l)) =
      .X * ∑ i, w i • S.slopeLag g z Y i l - S.residual g z w 1 l := by
  have hone : g.later z 1 l = g.solution z l := by
    rw [System.later, PowerSeries.rescale_one, RingHom.id_apply]
  have hslopes := increment_sub .X w g Y (fun j => g.later z (S.node j)) l
  simp only [slopeLag]
  rw [← hslopes, residual, hone]
  ring

theorem OrderFour.dvd_increment_sub (h : S.OrderFour exempt w)
    (hS : S.SecondOrder exempt) (hY : S.AreStages g z .X Y) (l : ι) :
    .X ^ 5 ∣ increment .X w g Y l - (g.solution z l - .C (z l)) := by
  have hslopes := mul_dvd_mul_left .X
    (hS.dvd_sum_slopeLag_four hY h.omits h.cancels l)
  rw [← pow_succ'] at hslopes
  rw [increment_sub_solution S]
  exact dvd_sub hslopes (S.dvd_residual g z h.quadrature l)

theorem OrderFive.dvd_increment_sub (h : S.OrderFive exempt w)
    (hS : S.SecondOrder exempt) (hY : S.AreStages g z .X Y) (l : ι) :
    .X ^ 6 ∣ increment .X w g Y l - (g.solution z l - .C (z l)) := by
  have hslopes := mul_dvd_mul_left .X
    (hS.dvd_sum_slopeLag_five hY h.omits h.cancels h.through h.nodes l)
  rw [← pow_succ'] at hslopes
  rw [increment_sub_solution S]
  exact dvd_sub hslopes (S.dvd_residual g z h.quadrature l)

end Errors

end ButcherMatrix

end CarrierTransport
