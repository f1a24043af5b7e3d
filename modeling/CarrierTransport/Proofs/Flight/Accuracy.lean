import Mathlib.Data.Fintype.BigOperators
import CarrierTransport.Proofs.Flight.Order
import CarrierTransport.Proofs.Flight.Stages

/-!
# Accuracy of the steps

Along a polynomial velocity field a step is a polynomial in the timestep.  Up to
the fifth power it is the solution of the field, and so is up to the fourth what
is left of it without its error.
-/

namespace CarrierTransport

open MvPolynomial (pderiv)
open PowerSeries (coeff)
open scoped Polynomial PowerSeries Nat

/-! ## Polynomial fields -/

/-- The components of a velocity as polynomials in the time, the variable
`none`, and the coordinates. -/
abbrev PolynomialField := Axis → MvPolynomial (Option Axis) ℚ

/-- What the variables stand for at a time and a place. -/
def coordinates (time : ℚ) (position : Vec3 ℚ) : Option Axis → ℚ
  | none => time
  | some axis => position.component axis

namespace PolynomialField

variable (f : PolynomialField)

noncomputable def velocity (time : ℚ) (position : Vec3 ℚ) : Vec3 ℚ :=
  .ofComponents fun axis =>
    MvPolynomial.eval (coordinates time position) (f axis)

theorem component_velocity (time : ℚ) (position : Vec3 ℚ) (axis : Axis) :
    (f.velocity time position).component axis =
      MvPolynomial.aeval (coordinates time position) (f axis) := by
  rw [velocity, Vec3.component_ofComponents, MvPolynomial.aeval_eq_eval]

/-- The derivative by the time of what a carrier sees that moves with the
field. -/
noncomputable def along (p : MvPolynomial (Option Axis) ℚ) :
    MvPolynomial (Option Axis) ℚ :=
  pderiv none p + ∑ axis, pderiv (some axis) p * f axis

/-- The field with the time as one more coordinate. -/
noncomputable def system : System (Option Axis)
  | none => 1
  | some axis => f axis

theorem system_along : f.system.along = f.along := by
  funext p
  simp [System.along, along, Fintype.sum_option, system]

end PolynomialField

/-! ## Tableaux -/

namespace Tableau

variable (T : Tableau ℚ)

/-- The weights of the stages, with zeros for those that are left out. -/
def weigh (weights : List ℚ) (i : Fin T.stages.length) : ℚ := weights.getD i 0

def matrix : ButcherMatrix (Fin T.stages.length) where
  node i := T.stages[i].1
  weight i := T.weigh T.stages[i].2

/-- Every stage weighs those before it and is taken at the sum of its weights. -/
structure Sequential : Prop where
  length_le : ∀ i : Fin T.stages.length, T.stages[i].2.length ≤ i
  row : ∀ i, T.matrix.stageDefect i 0 = 0

variable {T}

theorem Sequential.explicit (h : T.Sequential) : T.matrix.Explicit := by
  intro i j hij
  exact List.getD_eq_default _ _ ((h.length_le i).trans hij)

theorem Sequential.node_eq (h : T.Sequential) (i : Fin T.stages.length) :
    T.matrix.node i = ∑ j, T.matrix.weight i j := by
  have hrow := h.row i
  simp only [ButcherMatrix.stageDefect, ButcherMatrix.defect, pow_zero,
    mul_one, Nat.cast_zero, zero_add, pow_one, one_mul] at hrow
  exact sub_eq_zero.mp hrow

end Tableau

/-! ## Steps along polynomial fields -/

/-- A vector of polynomials at one value of their variable. -/
noncomputable def evalAt (p : Axis → ℚ[X]) (h : ℚ) : Vec3 ℚ :=
  .ofComponents fun axis => (p axis).eval h

theorem evalAt_sub (p q : Axis → ℚ[X]) (h : ℚ) :
    evalAt p h - evalAt q h = evalAt (p - q) h := by
  refine Vec3.ext_component fun axis => ?_
  simp only [evalAt, Vec3.component_sub, Vec3.component_ofComponents,
    Pi.sub_apply, Polynomial.eval_sub]

namespace PolynomialField

variable (f : PolynomialField) (T : Tableau ℚ) (time : ℚ) (position : Vec3 ℚ)

/-- The places of the stages of a step of length `h`, with their times. -/
noncomputable def places {R : Type} [CommRing R] [Algebra ℚ R] (h : R) :
    Fin T.stages.length → Option Axis → R :=
  T.matrix.stages f.system (coordinates time position) h

/-- The displacement of a step, as a polynomial in its length. -/
noncomputable def displacement (weights : List ℚ) (axis : Axis) : ℚ[X] :=
  ButcherMatrix.increment .X (T.weigh weights) f.system
    (f.places T time position .X) (some axis)

theorem eval_displacement (weights : List ℚ) (axis : Axis) (h : ℚ) :
    (f.displacement T time position weights axis).eval h =
      ButcherMatrix.increment h (T.weigh weights) f.system
        (f.places T time position h) (some axis) := by
  rw [displacement, ← Polynomial.coe_aeval_eq_eval,
    ButcherMatrix.map_increment, Polynomial.aeval_X]
  simp only [places, ButcherMatrix.map_stages, Polynomial.aeval_X]

theorem coe_displacement (weights : List ℚ) (axis : Axis) :
    (f.displacement T time position weights axis : ℚ⟦X⟧) =
      ButcherMatrix.increment .X (T.weigh weights) f.system
        (f.places T time position .X) (some axis) := by
  have hcoe (p : ℚ[X]) :
      (p : ℚ⟦X⟧) = Polynomial.coeToPowerSeries.algHom ℚ p := by
    rw [Polynomial.coeToPowerSeries.algHom_apply, Algebra.algebraMap_self,
      PowerSeries.map_id, id_eq]
  have hX : Polynomial.coeToPowerSeries.algHom ℚ (.X : ℚ[X]) = .X := by
    rw [← hcoe, Polynomial.coe_X]
  rw [hcoe, displacement, ButcherMatrix.map_increment, hX]
  simp only [places, ButcherMatrix.map_stages, hX]

/-- The displacements of the stages of a step of length `h`. -/
noncomputable def displacements (h : ℚ) (i : Fin T.stages.length) : Vec3 ℚ :=
  .ofComponents fun axis =>
    h * MvPolynomial.aeval (f.places T time position h i) (f axis)

theorem combine_displacements (weights : List ℚ) (h : ℚ) :
    Motion.combine weights (List.ofFn (f.displacements T time position h)) =
      evalAt (f.displacement T time position weights) h := by
  refine Vec3.ext_component fun axis => ?_
  rw [Motion.component_combine_ofFn, evalAt, Vec3.component_ofComponents,
    eval_displacement, ButcherMatrix.increment, Finset.mul_sum]
  refine Finset.sum_congr rfl fun j _ => ?_
  rw [displacements, Vec3.component_ofComponents, Tableau.weigh, system,
    smul_eq_mul]
  ring

variable {T}

/-- A stage is at the time of its node, where the stages before it have moved
the position. -/
theorem places_eq (hT : T.Sequential) (h : ℚ) (i : Fin T.stages.length) :
    f.places T time position h i =
      coordinates (time + T.stages[i].1 * h)
        (position + Motion.combine T.stages[i].2
          (List.ofFn (f.displacements T time position h))) := by
  have hplaces := hT.explicit.areStages (g := f.system)
    (z := coordinates time position) h i
  funext coordinate
  rw [places, hplaces, combine_displacements]
  cases coordinate with
  | none =>
      have hslope (j : Fin T.stages.length) :
          T.matrix.weight i j • MvPolynomial.aeval
            (f.places T time position h j) (f.system none) =
            T.matrix.weight i j := by
        rw [system, map_one, smul_eq_mul, mul_one]
      change time + h * ∑ j, T.matrix.weight i j • MvPolynomial.aeval
        (f.places T time position h j) (f.system none) =
          time + T.matrix.node i * h
      rw [Finset.sum_congr rfl fun j _ => hslope j, hT.node_eq, mul_comm]
  | some axis =>
      change position.component axis + ButcherMatrix.increment h _ f.system
        (f.places T time position h) (some axis) = Vec3.component (_ + _) axis
      rw [Vec3.component_add, evalAt, Vec3.component_ofComponents,
        eval_displacement]
      rfl

theorem displaces (hT : T.Sequential) (h : ℚ) :
    Motion.Displaces f.velocity ⟨position, time, h⟩ T.stages
      (List.ofFn (f.displacements T time position h)) where
  length_eq := List.length_ofFn
  getElem?_eq i stage hstage := by
    obtain ⟨hlt, rfl⟩ := List.getElem?_eq_some_iff.mp hstage
    have hlength : T.stages[i].2.length ≤ i := hT.length_le ⟨i, hlt⟩
    rw [Motion.combine_take _ hlength, List.getElem?_ofFn, dif_pos hlt]
    refine congrArg some (Vec3.ext_component fun axis => ?_)
    rw [displacements, Vec3.component_ofComponents, Vec3.component_smul,
      f.component_velocity, f.places_eq time position hT]
    rfl

theorem advance_eq (hT : T.Sequential) (h : ℚ) :
    (Motion.advance T (fun t p => .ok (f.velocity t p)) ⟨position, time, h⟩ :
      Except Fault (Increment ℚ)) =
      .ok ⟨⟨position + evalAt (f.displacement T time position T.high) h,
          time + h, h⟩,
        evalAt (f.displacement T time position T.high) h,
        evalAt (f.displacement T time position T.high -
          f.displacement T time position T.low) h⟩ := by
  rw [(f.displaces time position hT h).advance_eq, combine_displacements,
    combine_displacements, evalAt_sub]

/-- How far the solution from a time and a position has gone. -/
noncomputable def path (axis : Axis) : ℚ⟦X⟧ :=
  f.system.solution (coordinates time position) (some axis) -
    .C (position.component axis)

variable {f time position} {weights : List ℚ} {axis : Axis} {n : ℕ}

theorem coeff_displacement (h : .X ^ (n + 1) ∣
      (f.displacement T time position weights axis : ℚ⟦X⟧) -
        f.path time position axis) (k : ℕ) (hk : k < n) :
    (f.displacement T time position weights axis).coeff (k + 1) =
      MvPolynomial.eval (coordinates time position) (f.along^[k] (f axis)) /
        (k + 1)! := by
  have hcoeff := PowerSeries.X_pow_dvd_iff.mp h (k + 1) (by omega)
  rw [map_sub, path, map_sub, PowerSeries.coeff_C, if_neg k.succ_ne_zero,
    sub_zero, System.coeff_succ_solution, Polynomial.coeff_coe,
    system_along] at hcoeff
  exact sub_eq_zero.mp hcoeff

end PolynomialField

/-! ## The two methods -/

namespace Tableau

def second (scheme : Scheme) :
    Fin (ofScheme scheme : Tableau ℚ).stages.length :=
  ⟨1, by cases scheme <;> decide⟩

theorem secondOrder (scheme : Scheme) :
    (ofScheme scheme).matrix.SecondOrder (second scheme) := by
  cases scheme <;> decide +kernel

theorem sequential (scheme : Scheme) : (ofScheme scheme).Sequential where
  length_le := by cases scheme <;> decide +kernel
  row := (secondOrder scheme).row

theorem orderFive (scheme : Scheme) :
    (ofScheme scheme).matrix.OrderFive (second scheme)
      (weigh _ (ofScheme scheme).high) := by
  cases scheme <;> constructor <;> decide +kernel

theorem orderFour (scheme : Scheme) :
    (ofScheme scheme).matrix.OrderFour (second scheme)
      (weigh _ (ofScheme scheme).low) := by
  cases scheme <;> constructor <;> decide +kernel

end Tableau

section Schemes

variable (scheme : Scheme) (f : PolynomialField) (time : ℚ) (position : Vec3 ℚ)

theorem PolynomialField.dvd_high (axis : Axis) :
    .X ^ 6 ∣ (f.displacement (.ofScheme scheme) time position
      (Tableau.ofScheme scheme).high axis : ℚ⟦X⟧) -
      f.path time position axis := by
  rw [coe_displacement]
  exact (Tableau.orderFive scheme).dvd_increment_sub
    (Tableau.secondOrder scheme)
    ((Tableau.sequential scheme).explicit.areStages PowerSeries.X)
    (some axis)

theorem PolynomialField.dvd_low (axis : Axis) :
    .X ^ 5 ∣ (f.displacement (.ofScheme scheme) time position
      (Tableau.ofScheme scheme).low axis : ℚ⟦X⟧) -
      f.path time position axis := by
  rw [coe_displacement]
  exact (Tableau.orderFour scheme).dvd_increment_sub
    (Tableau.secondOrder scheme)
    ((Tableau.sequential scheme).explicit.areStages PowerSeries.X)
    (some axis)

/-- A step follows the solution of a polynomial field up to the fifth power of
the timestep, and without its error up to the fourth: the coefficients are the
derivatives of the field along its flow.  The error has no lower power than the
fifth. -/
theorem Motion.advance_follows_flow :
    ∃ step error : Axis → ℚ[X],
      (∀ h : ℚ, (advance (.ofScheme scheme) (fun t p => .ok (f.velocity t p))
          ⟨position, time, h⟩ : Except Fault (Increment ℚ)) =
        .ok ⟨⟨position + evalAt step h, time + h, h⟩, evalAt step h,
          evalAt error h⟩) ∧
      (∀ axis, ∀ k < 5, (step axis).coeff (k + 1) =
        MvPolynomial.eval (coordinates time position) (f.along^[k] (f axis)) /
          (k + 1)!) ∧
      (∀ axis, ∀ k < 4, (step axis - error axis).coeff (k + 1) =
        MvPolynomial.eval (coordinates time position) (f.along^[k] (f axis)) /
          (k + 1)!) ∧
      ∀ axis, ∀ k < 5, (error axis).coeff k = 0 := by
  refine ⟨f.displacement (.ofScheme scheme) time position
      (Tableau.ofScheme scheme).high,
    f.displacement (.ofScheme scheme) time position
        (Tableau.ofScheme scheme).high -
      f.displacement (.ofScheme scheme) time position
        (Tableau.ofScheme scheme).low, ?_, ?_, ?_, ?_⟩
  · exact f.advance_eq time position (Tableau.sequential scheme)
  · intro axis
    exact PolynomialField.coeff_displacement
      (f.dvd_high scheme time position axis)
  · intro axis
    rw [Pi.sub_apply, sub_sub_cancel]
    exact PolynomialField.coeff_displacement
      (f.dvd_low scheme time position axis)
  · intro axis k hk
    have herror := dvd_sub ((pow_dvd_pow _ (Nat.le_succ 5)).trans
      (f.dvd_high scheme time position axis))
      (f.dvd_low scheme time position axis)
    rw [sub_sub_sub_cancel_right] at herror
    have hcoeff := PowerSeries.X_pow_dvd_iff.mp herror k hk
    rwa [map_sub, Polynomial.coeff_coe, Polynomial.coeff_coe,
      ← Polynomial.coeff_sub] at hcoeff

end Schemes

end CarrierTransport
