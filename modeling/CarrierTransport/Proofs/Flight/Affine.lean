import Mathlib.Data.Matrix.Block
import CarrierTransport.Proofs.Flight.Accuracy

/-!
# Steps along affine fields

Along a velocity that is affine in the place and the time, a step multiplies the
place, the time and one by a polynomial in the matrix of the field.  The
coefficients of the polynomial are sums over the stages.
-/

namespace CarrierTransport

open scoped Matrix

/-! ## Linear systems -/

namespace ButcherMatrix

section Linear

variable {κ ν : Type} [Fintype κ] [Fintype ν]

/-- The stages of a step from `z` along a linear system, where `L` is its matrix
times the timestep. -/
def AreLinearStages (S : ButcherMatrix κ) (L : Matrix ν ν ℚ) (z : ν → ℚ)
    (Y : κ → ν → ℚ) : Prop :=
  ∀ i, Y i = z + L *ᵥ ∑ j, S.weight i j • Y j

/-- What the weights `w` of the stages give to a power of the matrix. -/
def moment (S : ButcherMatrix κ) (w : κ → ℚ) (k : ℕ) : ℚ :=
  ∑ i, S.through^[k] w i

variable {S : ButcherMatrix κ} {L : Matrix ν ν ℚ} {z : ν → ℚ} {Y : κ → ν → ℚ}

theorem AreLinearStages.sum_eq (hY : S.AreLinearStages L z Y) (w : κ → ℚ) :
    ∑ i, w i • Y i =
      (∑ i, w i) • z + L *ᵥ ∑ j, S.through w j • Y j := by
  have hstage (i : κ) :
      w i • Y i = w i • z + L *ᵥ (w i • ∑ j, S.weight i j • Y j) := by
    rw [Matrix.mulVec_smul, ← smul_add, ← hY i]
  rw [Finset.sum_congr rfl fun i _ => hstage i, Finset.sum_add_distrib,
    ← Finset.sum_smul, ← Matrix.mulVec_sum, sum_through]

theorem AreLinearStages.sum_eq_powers [DecidableEq ν]
    (hY : S.AreLinearStages L z Y) (w : κ → ℚ) (n : ℕ) :
    ∑ i, w i • Y i = ∑ k ∈ Finset.range n, S.moment w k • (L ^ k *ᵥ z) +
      L ^ n *ᵥ ∑ j, S.through^[n] w j • Y j := by
  induction n with
  | zero => simp
  | succ n ih =>
      rw [ih, hY.sum_eq, Finset.sum_range_succ, Matrix.mulVec_add,
        Matrix.mulVec_smul, Matrix.mulVec_mulVec, ← pow_succ,
        Function.iterate_succ_apply', moment, add_assoc]

/-- The weights of an explicit method reach one stage less with each stage on
the way. -/
theorem Explicit.iterate_through {n : ℕ} {S : ButcherMatrix (Fin n)}
    (hS : S.Explicit) (w : Fin n → ℚ) (k : ℕ) (j : Fin n) (h : n ≤ j + k) :
    S.through^[k] w j = 0 := by
  induction k generalizing j with
  | zero => exact absurd h (not_le.mpr j.isLt)
  | succ k ih =>
      rw [Function.iterate_succ_apply', through]
      refine Finset.sum_eq_zero fun i _ => ?_
      obtain hle | hlt := le_or_gt i j
      · rw [hS i j hle, mul_zero]
      · rw [ih i (by omega), zero_mul]

theorem AreLinearStages.sum_eq_moments [DecidableEq ν] {n m : ℕ}
    {S : ButcherMatrix (Fin n)} {Y : Fin n → ν → ℚ} (hS : S.Explicit)
    (hY : S.AreLinearStages L z Y) (hn : n ≤ m) (w : Fin n → ℚ) :
    ∑ i, w i • Y i =
      ∑ k ∈ Finset.range m, S.moment w k • (L ^ k *ᵥ z) := by
  have hnone (j : Fin n) : S.through^[m] w j • Y j = 0 := by
    rw [hS.iterate_through w m j (hn.trans (Nat.le_add_left m j)), zero_smul]
  rw [hY.sum_eq_powers w m, Finset.sum_congr rfl fun j _ => hnone j,
    Finset.sum_const_zero, Matrix.mulVec_zero, add_zero]

end Linear

end ButcherMatrix

/-! ## Affine systems -/

section Affine

variable {ι : Type} [Fintype ι]

/-- The coordinates and a one. -/
def homogeneous (x : ι → ℚ) : ι ⊕ Unit → ℚ := Sum.elim x 1

omit [Fintype ι] in
theorem homogeneous_add (x y : ι → ℚ) :
    homogeneous (x + y) = homogeneous x + Sum.elim y 0 := by
  funext coordinate
  cases coordinate <;> simp [homogeneous]

/-- The system with the right-hand side `J x + v`. -/
noncomputable def System.affine (J : Matrix ι ι ℚ) (v : ι → ℚ) : System ι :=
  fun i => .C (v i) + ∑ j, .C (J i j) * .X j

/-- The system with the right-hand side `J x + v` as a linear one of the
coordinates and a one. -/
def affineMatrix (J : Matrix ι ι ℚ) (v : ι → ℚ) :
    Matrix (ι ⊕ Unit) (ι ⊕ Unit) ℚ :=
  .fromBlocks J (.of fun i _ => v i) 0 0

variable (J : Matrix ι ι ℚ) (v : ι → ℚ)

theorem affineMatrix_mulVec (x : ι → ℚ) :
    affineMatrix J v *ᵥ homogeneous x =
      Sum.elim (fun i => MvPolynomial.aeval x (System.affine J v i)) 0 := by
  rw [affineMatrix, Matrix.fromBlocks_mulVec]
  funext coordinate
  cases coordinate with
  | inl i =>
      simp [homogeneous, System.affine, Matrix.mulVec, dotProduct, add_comm]
  | inr => simp [homogeneous]

theorem affineMatrix_mulVec_sum {κ : Type} [Fintype κ] (h : ℚ) (w : κ → ℚ)
    (Y : κ → ι → ℚ) :
    (h • affineMatrix J v) *ᵥ ∑ j, w j • homogeneous (Y j) =
      Sum.elim (ButcherMatrix.increment h w (System.affine J v) Y) 0 := by
  rw [Matrix.smul_mulVec, Matrix.mulVec_sum]
  simp only [Matrix.mulVec_smul, affineMatrix_mulVec]
  funext coordinate
  cases coordinate <;> simp [ButcherMatrix.increment]

end Affine

/-! ## Affine fields -/

/-- The velocity `start + gradient p + t rate` at the place `p` and the time
`t`. -/
structure AffineField where
  start : Vec3 ℚ
  gradient : Matrix Axis Axis ℚ
  rate : Vec3 ℚ

namespace AffineField

variable (f : AffineField)

def velocity (time : ℚ) (position : Vec3 ℚ) : Vec3 ℚ :=
  f.start + .ofComponents (f.gradient *ᵥ position.component) + time • f.rate

/-- How the rates of the time and the coordinates depend on them. -/
def jacobian : Matrix (Option Axis) (Option Axis) ℚ
  | some axis, some other => f.gradient axis other
  | some axis, none => f.rate.component axis
  | none, _ => 0

/-- The rates at the origin of the time and the coordinates. -/
def drive : Option Axis → ℚ
  | some axis => f.start.component axis
  | none => 1

/-- The matrix of the system that the time, the coordinates and a one follow. -/
def matrix : Matrix (Option Axis ⊕ Unit) (Option Axis ⊕ Unit) ℚ :=
  affineMatrix f.jacobian f.drive

noncomputable def polynomials : PolynomialField :=
  fun axis => System.affine f.jacobian f.drive (some axis)

theorem system_polynomials :
    f.polynomials.system = System.affine f.jacobian f.drive := by
  funext coordinate
  cases coordinate with
  | none => simp [PolynomialField.system, System.affine, jacobian, drive]
  | some axis => rfl

theorem velocity_polynomials : f.polynomials.velocity = f.velocity := by
  funext time position
  refine Vec3.ext_component fun axis => ?_
  simp [PolynomialField.velocity, polynomials, System.affine, velocity,
    jacobian, drive, coordinates, Matrix.mulVec, dotProduct]
  ring

variable {T : Tableau ℚ} (time : ℚ) (position : Vec3 ℚ) (h : ℚ)

theorem matrix_mulVec :
    f.matrix *ᵥ homogeneous (coordinates time position) =
      Sum.elim (coordinates 1 (f.velocity time position)) 0 := by
  rw [matrix, affineMatrix_mulVec, ← system_polynomials]
  congr 1
  funext coordinate
  cases coordinate with
  | none => exact map_one _
  | some axis =>
      rw [PolynomialField.system, ← PolynomialField.component_velocity,
        velocity_polynomials]
      rfl

/-- What a step of length `h` adds to the time and the coordinates under the
weights of a list. -/
noncomputable def increment (T : Tableau ℚ) (weights : List ℚ) :
    Option Axis → ℚ :=
  ButcherMatrix.increment h (T.weigh weights)
    (System.affine f.jacobian f.drive)
    (f.polynomials.places T time position h)

theorem areLinearStages (hT : T.Sequential) :
    T.matrix.AreLinearStages (h • f.matrix)
      (homogeneous (coordinates time position))
      fun i => homogeneous (f.polynomials.places T time position h i) := by
  have hstages := hT.explicit.areStages (g := f.polynomials.system)
    (z := coordinates time position) h
  intro i
  rw [matrix, affineMatrix_mulVec_sum, ← homogeneous_add,
    ← system_polynomials]
  exact congrArg homogeneous (funext (hstages i))

theorem increment_eq_moments (hT : T.Sequential) {m : ℕ}
    (hm : T.stages.length ≤ m) (weights : List ℚ) :
    Sum.elim (f.increment time position h T weights) 0 =
      ∑ k ∈ Finset.range m, T.matrix.moment (T.weigh weights) k •
        ((h • f.matrix) ^ (k + 1) *ᵥ
          homogeneous (coordinates time position)) := by
  have hsum := (f.areLinearStages time position h hT).sum_eq_moments hT.explicit
    hm (T.weigh weights)
  rw [increment, ← affineMatrix_mulVec_sum, ← matrix, hsum, Matrix.mulVec_sum]
  refine Finset.sum_congr rfl fun k _ => ?_
  rw [Matrix.mulVec_smul, Matrix.mulVec_mulVec, ← pow_succ']

theorem component_evalAt (weights : List ℚ) (axis : Axis) :
    (evalAt (f.polynomials.displacement T time position weights)
      h).component axis = f.increment time position h T weights (some axis) := by
  rw [evalAt, Vec3.component_ofComponents, PolynomialField.eval_displacement,
    system_polynomials]
  rfl

/-- The time goes on by the timestep where the weights add up to one. -/
theorem coordinates_add {weights : List ℚ}
    (hone : T.matrix.moment (T.weigh weights) 0 = 1) :
    coordinates (time + h) (position +
        evalAt (f.polynomials.displacement T time position weights) h) =
      coordinates time position + f.increment time position h T weights := by
  funext coordinate
  cases coordinate with
  | none =>
      have hslope (x : Option Axis → ℚ) :
          MvPolynomial.aeval x (System.affine f.jacobian f.drive none) =
            1 := by
        rw [← system_polynomials, PolynomialField.system, map_one]
      have hsum : ∑ i, T.weigh weights i = 1 := hone
      simp only [Pi.add_apply, coordinates, increment, ButcherMatrix.increment,
        hslope, smul_eq_mul, mul_one, hsum]
  | some axis =>
      rw [Pi.add_apply, ← f.component_evalAt]
      exact Vec3.component_add _ _ axis

end AffineField

/-! ## The two methods -/

namespace Scheme

/-- What the sixth power of the matrix counts for in a step. -/
def sixth : Scheme → ℚ
  | fehlberg => 1 / 2080
  | cashKarp => 1 / 800

def errorFifth : Scheme → ℚ
  | fehlberg => -1 / 780
  | cashKarp => -277 / 1228800

def errorSixth : Scheme → ℚ
  | fehlberg => 1 / 2080
  | cashKarp => 277 / 1638400

section Matrices

variable {ν : Type} [Fintype ν] [DecidableEq ν] (scheme : Scheme)

/-- What a step multiplies by, where `L` is the matrix times the timestep. -/
def propagator (L : Matrix ν ν ℚ) : Matrix ν ν ℚ :=
  1 + L + (1 / 2 : ℚ) • L ^ 2 + (1 / 6 : ℚ) • L ^ 3 + (1 / 24 : ℚ) • L ^ 4 +
    (1 / 120 : ℚ) • L ^ 5 + scheme.sixth • L ^ 6

/-- The polynomial of the difference of the two methods. -/
def errorPropagator (L : Matrix ν ν ℚ) : Matrix ν ν ℚ :=
  scheme.errorFifth • L ^ 5 + scheme.errorSixth • L ^ 6

end Matrices

end Scheme

namespace Tableau

variable (scheme : Scheme)

theorem length_stages : (ofScheme scheme : Tableau ℚ).stages.length ≤ 6 := by
  cases scheme <;> decide

theorem moment_high (k : Fin 6) :
    (ofScheme scheme).matrix.moment (weigh _ (ofScheme scheme).high) k =
      ![1, 1 / 2, 1 / 6, 1 / 24, 1 / 120, scheme.sixth] k := by
  revert k
  cases scheme <;> decide +kernel

theorem moment_low (k : Fin 6) :
    (ofScheme scheme).matrix.moment (weigh _ (ofScheme scheme).low) k =
      ![1, 1 / 2, 1 / 6, 1 / 24, 1 / 120 - scheme.errorFifth,
        scheme.sixth - scheme.errorSixth] k := by
  revert k
  cases scheme <;> decide +kernel

end Tableau

namespace AffineField

variable (f : AffineField) (scheme : Scheme) (time : ℚ) (position : Vec3 ℚ)
variable (h : ℚ)

theorem add_increment_high :
    homogeneous (coordinates time position) +
        Sum.elim (f.increment time position h (.ofScheme scheme)
          (Tableau.ofScheme scheme).high) 0 =
      scheme.propagator (h • f.matrix) *ᵥ
        homogeneous (coordinates time position) := by
  rw [f.increment_eq_moments time position h (Tableau.sequential scheme)
    (Tableau.length_stages scheme), Finset.sum_range]
  simp only [Tableau.moment_high, Fin.sum_univ_six]
  simp [Scheme.propagator, Matrix.add_mulVec, Matrix.smul_mulVec, add_assoc]

theorem increment_high_sub_low :
    Sum.elim (f.increment time position h (.ofScheme scheme)
        (Tableau.ofScheme scheme).high) 0 -
      Sum.elim (f.increment time position h (.ofScheme scheme)
        (Tableau.ofScheme scheme).low) 0 =
      scheme.errorPropagator (h • f.matrix) *ᵥ
        homogeneous (coordinates time position) := by
  rw [f.increment_eq_moments time position h (Tableau.sequential scheme)
      (Tableau.length_stages scheme),
    f.increment_eq_moments time position h (Tableau.sequential scheme)
      (Tableau.length_stages scheme), ← Finset.sum_sub_distrib,
    Finset.sum_range]
  simp only [Tableau.moment_high, Tableau.moment_low, ← sub_smul,
    Fin.sum_univ_six]
  simp [Scheme.errorPropagator, Matrix.add_mulVec, Matrix.smul_mulVec]

end AffineField

namespace Motion

/-- The time and the coordinates of a motion, and a one. -/
def vector (motion : Motion ℚ) : Option Axis ⊕ Unit → ℚ :=
  homogeneous (coordinates motion.time motion.position)

variable {α : Type} [Arithmetic α] {m : Type → Type} [Monad m]

/-- The motion after so many steps, each from where the one before it ended. -/
def afterSteps (tableau : Tableau α) (velocity : α → Vec3 α → m (Vec3 α)) :
    ℕ → Motion α → m (Motion α)
  | 0, motion => pure motion
  | n + 1, motion => do
      let taken ← motion.advance tableau velocity
      afterSteps tableau velocity n taken.after

variable (scheme : Scheme) (f : AffineField) (motion : Motion ℚ)

theorem exists_advance :
    ∃ taken : Increment ℚ,
      (motion.advance (.ofScheme scheme) (fun t p => .ok (f.velocity t p)) :
        Except Fault (Increment ℚ)) = .ok taken ∧
      taken.after.vector =
        scheme.propagator (motion.timestep • f.matrix) *ᵥ motion.vector ∧
      taken.after.position = motion.position + taken.step ∧
      taken.after.timestep = motion.timestep ∧
      ∀ axis, taken.error.component axis =
        (scheme.errorPropagator (motion.timestep • f.matrix) *ᵥ
          motion.vector) (.inl (some axis)) := by
  obtain ⟨position, time, h⟩ := motion
  have hadvance := f.polynomials.advance_eq time position
    (Tableau.sequential scheme) h
  rw [f.velocity_polynomials] at hadvance
  refine ⟨_, hadvance, ?_, rfl, rfl, ?_⟩
  · have hhigh := f.coordinates_add time position h
      (Tableau.moment_high scheme 0)
    rw [vector, hhigh, homogeneous_add]
    exact f.add_increment_high scheme time position h
  · intro axis
    have herror := congrFun (f.increment_high_sub_low scheme time position h)
      (.inl (some axis))
    rw [vector, ← herror, ← evalAt_sub, Vec3.component_sub,
      f.component_evalAt, f.component_evalAt]
    rfl

/-- An affine field is linear in the time, the place and a one.  A step
multiplies them by the polynomial of the method in the matrix of the field, and
its error is a combination of the fifth and the sixth power.  Several steps
multiply by a power of the polynomial. -/
theorem advance_along_affine (scheme : Scheme) (f : AffineField) :
    (∀ time position, f.matrix *ᵥ homogeneous (coordinates time position) =
      Sum.elim (coordinates 1 (f.velocity time position)) 0) ∧
    (∀ motion : Motion ℚ, ∃ taken : Increment ℚ,
      (motion.advance (.ofScheme scheme) (fun t p => .ok (f.velocity t p)) :
        Except Fault (Increment ℚ)) = .ok taken ∧
      taken.after.vector =
        scheme.propagator (motion.timestep • f.matrix) *ᵥ motion.vector ∧
      taken.after.position = motion.position + taken.step ∧
      taken.after.timestep = motion.timestep ∧
      ∀ axis, taken.error.component axis =
        (scheme.errorPropagator (motion.timestep • f.matrix) *ᵥ
          motion.vector) (.inl (some axis))) ∧
    ∀ (n : ℕ) (motion : Motion ℚ), ∃ later : Motion ℚ,
      (motion.afterSteps (.ofScheme scheme)
        (fun t p => .ok (f.velocity t p)) n : Except Fault (Motion ℚ)) =
          .ok later ∧
      later.vector =
        scheme.propagator (motion.timestep • f.matrix) ^ n *ᵥ motion.vector ∧
      later.timestep = motion.timestep := by
  refine ⟨f.matrix_mulVec, exists_advance scheme f, fun n => ?_⟩
  induction n with
  | zero =>
      intro motion
      exact ⟨motion, rfl, by rw [pow_zero, Matrix.one_mulVec], rfl⟩
  | succ n ih =>
      intro motion
      obtain ⟨taken, htaken, hvector, -, htimestep, -⟩ :=
        exists_advance scheme f motion
      obtain ⟨later, hlater, hpower, hkept⟩ := ih taken.after
      refine ⟨later, ?_, ?_, hkept.trans htimestep⟩
      · unfold afterSteps
        rw [htaken]
        exact hlater
      · rw [hpower, hvector, htimestep, Matrix.mulVec_mulVec, ← pow_succ]

end Motion

end CarrierTransport
