import Mathlib.Algebra.MvPolynomial.PDeriv
import Mathlib.RingTheory.PowerSeries.Derivative

/-!
# Solutions as power series

A system of differential equations with polynomial right-hand sides has one
solution from each start, as a power series in the time.  Its coefficients are
the derivatives along the system, and a polynomial along the solution is the
polynomial at the solution.
-/

namespace CarrierTransport

open MvPolynomial (aeval pderiv)
open PowerSeries (coeff constantCoeff rescale)
open scoped PowerSeries Nat

variable {ι : Type} [Fintype ι]

/-! ## Polynomials to first order -/

section Directional

variable {R : Type} [CommRing R] [Algebra ℚ R]

/-- The derivative of a polynomial at `Z` in the direction `v`. -/
noncomputable def directional (Z v : ι → R) (p : MvPolynomial ι ℚ) : R :=
  ∑ i, aeval Z (pderiv i p) * v i

theorem directional_C (Z v : ι → R) (c : ℚ) : directional Z v (.C c) = 0 := by
  simp [directional]

theorem directional_add (Z v : ι → R) (p q : MvPolynomial ι ℚ) :
    directional Z v (p + q) = directional Z v p + directional Z v q := by
  simp only [directional, map_add, add_mul, Finset.sum_add_distrib]

theorem directional_mul_X (Z v : ι → R) (p : MvPolynomial ι ℚ) (j : ι) :
    directional Z v (p * .X j) = directional Z v p * Z j + aeval Z p * v j := by
  classical
  have hterm (i : ι) : aeval Z (pderiv i (p * .X j)) * v i =
      aeval Z (pderiv i p) * v i * Z j +
        if i = j then aeval Z p * v j else 0 := by
    rw [MvPolynomial.pderiv_mul, MvPolynomial.pderiv_X, Pi.single_apply]
    by_cases hij : i = j
    · subst hij
      simp
      ring
    · simp [hij, Ne.symm hij]
      ring
  rw [directional, Finset.sum_congr rfl fun i _ => hterm i,
    Finset.sum_add_distrib, ← Finset.sum_mul, Finset.sum_ite_eq' Finset.univ j]
  simp [directional]

variable {a : R} {Y Z : ι → R}

omit [Fintype ι] in
theorem dvd_aeval_sub (h : ∀ i, a ∣ Y i - Z i) (p : MvPolynomial ι ℚ) :
    a ∣ aeval Y p - aeval Z p := by
  induction p using MvPolynomial.induction_on with
  | C c => simp
  | add p q hp hq =>
      rw [map_add, map_add, add_sub_add_comm]
      exact dvd_add hp hq
  | mul_X p i hp =>
      have hsplit : aeval Y p * Y i - aeval Z p * Z i =
          (aeval Y p - aeval Z p) * Y i + aeval Z p * (Y i - Z i) := by
        ring
      rw [map_mul, map_mul, MvPolynomial.aeval_X, MvPolynomial.aeval_X, hsplit]
      exact dvd_add (hp.mul_right _) ((h i).mul_left _)

theorem dvd_directional {v : ι → R} (h : ∀ i, a ∣ v i) (p : MvPolynomial ι ℚ) :
    a ∣ directional Z v p :=
  Finset.dvd_sum fun i _ => (h i).mul_left _

/-- A polynomial changes by its derivative up to the square of the change. -/
theorem sq_dvd_aeval_sub (h : ∀ i, a ∣ Y i - Z i) (p : MvPolynomial ι ℚ) :
    a ^ 2 ∣ aeval Y p - aeval Z p - directional Z (Y - Z) p := by
  induction p using MvPolynomial.induction_on with
  | C c => simp [directional_C]
  | add p q hp hq =>
      rw [directional_add, map_add, map_add, add_sub_add_comm, add_sub_add_comm]
      exact dvd_add hp hq
  | mul_X p j hp =>
      have hsquare : a ^ 2 ∣ directional Z (Y - Z) p * (Y j - Z j) := by
        rw [pow_two]
        exact mul_dvd_mul (dvd_directional h p) (h j)
      have hsplit : aeval Y p * Y j - aeval Z p * Z j -
          (directional Z (Y - Z) p * Z j + aeval Z p * (Y j - Z j)) =
            (aeval Y p - aeval Z p - directional Z (Y - Z) p) * Y j +
              directional Z (Y - Z) p * (Y j - Z j) := by
        ring
      rw [directional_mul_X, map_mul, map_mul, MvPolynomial.aeval_X,
        MvPolynomial.aeval_X, Pi.sub_apply, hsplit]
      exact dvd_add (hp.mul_right _) hsquare

end Directional

/-- The chain rule. -/
theorem derivative_aeval (Y : ι → ℚ⟦X⟧) (p : MvPolynomial ι ℚ) :
    d⁄dX ℚ (aeval Y p) = directional Y (fun i => d⁄dX ℚ (Y i)) p := by
  induction p using MvPolynomial.induction_on with
  | C c => simp [directional_C]
  | add p q hp hq => rw [directional_add, map_add, map_add, hp, hq]
  | mul_X p j hp =>
      rw [directional_mul_X, map_mul, MvPolynomial.aeval_X, Derivation.leibniz,
        hp, smul_eq_mul, smul_eq_mul]
      ring

/-! ## Solutions -/

/-- The right-hand sides of an autonomous system, one for each coordinate. -/
abbrev System (ι : Type) := ι → MvPolynomial ι ℚ

namespace System

variable (g : System ι) (z : ι → ℚ)

/-- The derivative of a polynomial along the solutions. -/
noncomputable def along (p : MvPolynomial ι ℚ) : MvPolynomial ι ℚ :=
  ∑ i, pderiv i p * g i

/-- The value of a polynomial along the solution from `z`. -/
noncomputable def flow (p : MvPolynomial ι ℚ) : ℚ⟦X⟧ :=
  .mk fun k => MvPolynomial.eval z (g.along^[k] p) / k !

/-- The coordinates of the solution from `z`. -/
noncomputable def solution (i : ι) : ℚ⟦X⟧ := g.flow z (.X i)

theorem along_X (i : ι) : g.along (.X i) = g i := by
  classical
  simp [along, MvPolynomial.pderiv_X, Pi.single_apply]

theorem aeval_along (Z : ι → ℚ⟦X⟧) (p : MvPolynomial ι ℚ) :
    aeval Z (g.along p) = directional Z (fun i => aeval Z (g i)) p := by
  simp only [along, directional, map_sum, map_mul]

theorem coeff_flow (k : ℕ) (p : MvPolynomial ι ℚ) :
    coeff k (g.flow z p) = MvPolynomial.eval z (g.along^[k] p) / k ! :=
  PowerSeries.coeff_mk k _

theorem derivative_flow (p : MvPolynomial ι ℚ) :
    d⁄dX ℚ (g.flow z p) = g.flow z (g.along p) := by
  ext k
  rw [PowerSeries.coeff_derivative, coeff_flow, coeff_flow,
    Function.iterate_succ_apply, Nat.factorial_succ]
  push_cast
  field_simp

theorem derivative_solution (i : ι) :
    d⁄dX ℚ (g.solution z i) = g.flow z (g i) := by
  rw [solution, derivative_flow, along_X]

theorem coeff_zero_solution (i : ι) : coeff 0 (g.solution z i) = z i := by
  rw [solution, coeff_flow]
  simp

theorem coeff_succ_solution (i : ι) (k : ℕ) :
    coeff (k + 1) (g.solution z i) =
      MvPolynomial.eval z (g.along^[k] (g i)) / (k + 1)! := by
  rw [solution, coeff_flow, Function.iterate_succ_apply, along_X]

theorem coeff_zero_aeval_solution (p : MvPolynomial ι ℚ) :
    coeff 0 (aeval (g.solution z) p) = MvPolynomial.eval z p := by
  have hconstant : constantCoeff.comp (algebraMap ℚ ℚ⟦X⟧) = .id ℚ := by
    ext c
    simp
  have hstart (i : ι) : constantCoeff (g.solution z i) = z i := by
    rw [← PowerSeries.coeff_zero_eq_constantCoeff_apply, coeff_zero_solution]
  rw [PowerSeries.coeff_zero_eq_constantCoeff_apply, MvPolynomial.map_aeval,
    hconstant, funext hstart]
  rfl

/-- A polynomial along the solution is the polynomial at the solution: both
start at the same value, and their derivatives agree to one order more with each
order to which they agree. -/
theorem flow_eq_aeval (p : MvPolynomial ι ℚ) :
    g.flow z p = aeval (g.solution z) p := by
  ext n
  induction n using Nat.strong_induction_on generalizing p with
  | _ n ih =>
      cases n with
      | zero =>
          rw [coeff_zero_aeval_solution, coeff_flow, Nat.factorial_zero,
            Nat.cast_one, div_one, Function.iterate_zero_apply]
      | succ n =>
          have hfactor (i : ι) : coeff n (aeval (g.solution z) (pderiv i p) *
              aeval (g.solution z) (g i)) =
              coeff n (aeval (g.solution z) (pderiv i p) *
                d⁄dX ℚ (g.solution z i)) := by
            rw [PowerSeries.coeff_mul, PowerSeries.coeff_mul]
            refine Finset.sum_congr rfl fun k hk => ?_
            have hle : k.2 < n + 1 := by
              have hsum := Finset.HasAntidiagonal.mem_antidiagonal.mp hk
              omega
            rw [derivative_solution, ih k.2 hle (g i)]
          have hderivative : coeff n (d⁄dX ℚ (g.flow z p)) =
              coeff n (d⁄dX ℚ (aeval (g.solution z) p)) := by
            rw [derivative_flow, ih n (Nat.lt_succ_self n), aeval_along,
              derivative_aeval]
            simp only [directional, map_sum, hfactor]
          rw [PowerSeries.coeff_derivative, PowerSeries.coeff_derivative]
            at hderivative
          exact mul_right_cancel₀ (by positivity) hderivative

/-- The solution on a clock that runs `c` times as fast. -/
noncomputable def later (c : ℚ) (i : ι) : ℚ⟦X⟧ := rescale c (g.solution z i)

theorem aeval_later (c : ℚ) (p : MvPolynomial ι ℚ) :
    aeval (g.later z c) p = rescale c (g.flow z p) := by
  have hrescale (f : ℚ⟦X⟧) : PowerSeries.rescaleAlgHom c f = rescale c f :=
    RingHom.congr_fun (PowerSeries.coe_rescaleAlgHom c) f
  have hlater : g.later z c =
      fun i => PowerSeries.rescaleAlgHom c (g.solution z i) :=
    funext fun i => (hrescale _).symm
  rw [hlater, ← MvPolynomial.comp_aeval_apply, ← flow_eq_aeval, hrescale]

/-- The coefficient of order `k` of a partial derivative along the solution. -/
noncomputable def gradient (k : ℕ) (p : MvPolynomial ι ℚ) (i : ι) : ℚ :=
  coeff k (g.flow z (pderiv i p))

variable {v : ι → ℚ⟦X⟧} {n : ℕ}

theorem dvd_directional_sub (hv : ∀ i, .X ^ n ∣ v i) (c : ℚ)
    (p : MvPolynomial ι ℚ) :
    .X ^ (n + 1) ∣ directional (g.later z c) v p -
      ∑ i, g.gradient z 0 p i • v i := by
  rw [directional, ← Finset.sum_sub_distrib]
  refine Finset.dvd_sum fun i _ => ?_
  rw [PowerSeries.smul_eq_C_mul, ← sub_mul, pow_succ']
  refine mul_dvd_mul ?_ (hv i)
  rw [PowerSeries.X_dvd_iff, ← PowerSeries.coeff_zero_eq_constantCoeff_apply,
    aeval_later, map_sub, PowerSeries.coeff_rescale, pow_zero, one_mul,
    PowerSeries.coeff_zero_C, gradient, sub_self]

theorem dvd_directional_sub_two (hv : ∀ i, .X ^ n ∣ v i) (c : ℚ)
    (p : MvPolynomial ι ℚ) :
    .X ^ (n + 2) ∣ directional (g.later z c) v p -
      (∑ i, g.gradient z 0 p i • v i +
        .X * ∑ i, (c * g.gradient z 1 p i) • v i) := by
  rw [directional, Finset.mul_sum, ← Finset.sum_add_distrib,
    ← Finset.sum_sub_distrib]
  refine Finset.dvd_sum fun i _ => ?_
  have hsplit : aeval (g.later z c) (pderiv i p) * v i -
      (g.gradient z 0 p i • v i + .X * (c * g.gradient z 1 p i) • v i) =
      (aeval (g.later z c) (pderiv i p) - (.C (g.gradient z 0 p i) +
        .C (c * g.gradient z 1 p i) * .X)) * v i := by
    rw [PowerSeries.smul_eq_C_mul, PowerSeries.smul_eq_C_mul]
    ring
  rw [hsplit, add_comm n 2, pow_add]
  refine mul_dvd_mul ?_ (hv i)
  rw [PowerSeries.X_pow_dvd_iff, aeval_later]
  intro k hk
  rw [map_sub, map_add, PowerSeries.coeff_rescale]
  obtain rfl | rfl : k = 0 ∨ k = 1 := by omega
  · rw [PowerSeries.coeff_zero_C, PowerSeries.coeff_zero_mul_X, gradient]
    ring
  · rw [PowerSeries.coeff_C, if_neg one_ne_zero, PowerSeries.coeff_succ_mul_X,
      PowerSeries.coeff_zero_C, gradient]
    ring

end System

end CarrierTransport
