import CarrierTransport.Proofs.Scalar.Vec3
import CarrierTransport.Silicon.Drift

/-!
# Drift in a magnetic field

A magnetic field acts on a drifting carrier by the Lorentz force, so its
velocity `v` in the fields `E` and `B` has to satisfy
`v = s μ E + s m (v × B)`, where `s` is the sign of the carrier, `μ` its
mobility and `m` its Hall mobility.  The drift velocity is the solution of this
equation, and the balance of its square follows from the equation alone.
-/

namespace CarrierTransport

/-- The velocity `v` is the drive and its own turning by the field. -/
def Turned (drive field : Vec3 ℝ) (strength : ℝ) (v : Vec3 ℝ) : Prop :=
  v = drive + strength • v.cross field

namespace Turned

variable {drive field u v : Vec3 ℝ} {strength : ℝ}

theorem smul (k : ℝ) (h : Turned drive field strength v) :
    Turned (k • drive) field strength (k • v) := by
  calc k • v = k • (drive + strength • v.cross field) := congrArg (k • ·) h
    _ = k • drive + strength • (k • v).cross field := by
        rw [Vec3.smul_cross, smul_add, smul_comm]

/-- The difference of two solutions is across itself. -/
theorem unique (hu : Turned drive field strength u)
    (hv : Turned drive field strength v) : u = v := by
  have hturn : u - v = strength • (u - v).cross field := by
    calc u - v = (drive + strength • u.cross field) -
          (drive + strength • v.cross field) := congrArg₂ (· - ·) hu hv
      _ = strength • (u - v).cross field := by
          rw [Vec3.sub_cross, smul_sub]
          abel
  have hzero : (u - v).dot (u - v) = 0 := by
    calc (u - v).dot (u - v) = (u - v).dot (strength • (u - v).cross field) :=
          congrArg (u - v).dot hturn
      _ = 0 := by
          rw [Vec3.dot_smul, Vec3.dot_cross_left, mul_zero]
  exact sub_eq_zero.mp (Vec3.eq_zero_of_dot_self hzero)

/-- What a field turns aside is across the velocity, so squares add up. -/
theorem dot_self (h : Turned drive field strength v) :
    v.dot v + strength ^ 2 * (v.cross field).dot (v.cross field) =
      drive.dot drive := by
  have hdrive : drive = v + (-strength) • v.cross field := by
    rw [neg_smul, ← sub_eq_add_neg]
    exact eq_sub_of_add_eq h.symm
  rw [hdrive, Vec3.dot_self_add, Vec3.dot_smul, Vec3.dot_cross_left,
    Vec3.smul_dot_smul]
  ring

theorem dot_field (h : Turned drive field strength v) :
    v.dot field = drive.dot field := by
  calc v.dot field = field.dot (drive + strength • v.cross field) := by
        rw [Vec3.dot_comm, ← h]
    _ = drive.dot field := by
        rw [Vec3.dot_add, Vec3.dot_smul, Vec3.dot_cross_right, mul_zero,
          add_zero, Vec3.dot_comm]

theorem of_cross_eq_zero (strength : ℝ) (h : drive.cross field = 0) :
    Turned drive field strength drive := by
  rw [Turned, h, smul_zero, add_zero]

end Turned

theorem Carrier.sign_mul_self (carrier : Carrier) :
    (carrier.sign * carrier.sign : ℝ) = 1 := by
  cases carrier <;> norm_num [sign]

section Drift

variable (carrier : Carrier) (mobility : ℝ) (efield bfield : Vec3 ℝ)

/-- The Hall mobility under the sign of the carrier. -/
noncomputable def hallStrength : ℝ :=
  carrier.sign * (mobility * hallFactor carrier)

theorem hallStrength_sq :
    hallStrength carrier mobility ^ 2 =
      (mobility * hallFactor carrier) ^ 2 := by
  rw [hallStrength, mul_pow, pow_two carrier.sign, carrier.sign_mul_self,
    one_mul]

theorem drift_dot_self :
    (drift carrier mobility efield).dot (drift carrier mobility efield) =
      mobility ^ 2 * efield.dot efield := by
  rw [drift, Vec3.smul_dot_smul, mul_mul_mul_comm, carrier.sign_mul_self,
    one_mul, pow_two]

theorem norm_drift :
    (drift carrier mobility efield).norm = |mobility| * efield.norm := by
  unfold Vec3.norm
  rw [drift_dot_self]
  change √(mobility ^ 2 * efield.dot efield) =
    |mobility| * √(efield.dot efield)
  rw [Real.sqrt_mul (sq_nonneg mobility), Real.sqrt_sq_eq_abs]

theorem turned_magneticDrift :
    Turned (drift carrier mobility efield) bfield
      (hallStrength carrier mobility)
      (magneticDrift carrier mobility efield bfield) := by
  have hstrength := hallStrength_sq carrier mobility
  unfold magneticDrift drift
  dsimp only
  rw [← pow_two, ← hstrength, ← hallStrength]
  generalize hallStrength carrier mobility = m
  generalize carrier.sign * mobility = k
  have hscale : 1.0 + m ^ 2 * bfield.dot bfield ≠ 0 := by
    have hnonneg := mul_nonneg (sq_nonneg m) bfield.dot_self_nonneg
    norm_num
    positivity
  -- Without its scale the velocity solves the equation for a scaled field.
  have hunscaled : Turned ((1.0 + m ^ 2 * bfield.dot bfield) • efield) bfield m
      (efield + m • efield.cross bfield +
        (m ^ 2 * efield.dot bfield) • bfield) := by
    unfold Turned
    rw [Vec3.add_cross, Vec3.add_cross, Vec3.smul_cross, Vec3.smul_cross,
      Vec3.cross_self, Vec3.cross_cross_right]
    norm_num
    module
  rw [Vec3.dividedBy_eq_smul, smul_smul]
  have hscaled := hunscaled.smul
    ((1.0 + m ^ 2 * bfield.dot bfield)⁻¹ * k)
  rwa [smul_smul, mul_right_comm, inv_mul_cancel₀ hscale, one_mul] at hscaled

/-- The drift velocity in a magnetic field is the one solution of the Lorentz
equation.  The field never makes a carrier faster, it leaves the velocity along
itself as it is, and it has no effect along the electric field. -/
theorem magneticDrift_iff_lorentz :
    (∀ v, v = (carrier.sign * mobility) • efield +
        (carrier.sign * (mobility * hallFactor carrier)) • v.cross bfield ↔
      v = magneticDrift carrier mobility efield bfield) ∧
    (magneticDrift carrier mobility efield bfield).dot
        (magneticDrift carrier mobility efield bfield) +
      (mobility * hallFactor carrier) ^ 2 *
        ((magneticDrift carrier mobility efield bfield).cross bfield).dot
          ((magneticDrift carrier mobility efield bfield).cross bfield) =
      mobility ^ 2 * efield.dot efield ∧
    (magneticDrift carrier mobility efield bfield).norm ≤
      |mobility| * efield.norm ∧
    (magneticDrift carrier mobility efield bfield).dot bfield =
      carrier.sign * mobility * efield.dot bfield ∧
    (bfield = 0 ∨ efield.Parallel bfield →
      magneticDrift carrier mobility efield bfield =
        drift carrier mobility efield) := by
  have hturned := turned_magneticDrift carrier mobility efield bfield
  have hsquares := hturned.dot_self
  rw [hallStrength_sq, drift_dot_self] at hsquares
  refine ⟨?_, hsquares, ?_, ?_, ?_⟩
  · intro v
    constructor
    · intro hv
      exact Turned.unique hv hturned
    · rintro rfl
      exact hturned
  · have hturn := mul_nonneg (sq_nonneg (mobility * hallFactor carrier))
      ((magneticDrift carrier mobility efield bfield).cross
        bfield).dot_self_nonneg
    calc (magneticDrift carrier mobility efield bfield).norm
      _ ≤ √(mobility ^ 2 * efield.dot efield) :=
          Real.sqrt_le_sqrt (by linarith)
      _ = |mobility| * efield.norm := by
          rw [Real.sqrt_mul (sq_nonneg mobility), Real.sqrt_sq_eq_abs]
          rfl
  · rw [hturned.dot_field, drift, Vec3.dot_comm, Vec3.dot_smul, Vec3.dot_comm]
  · intro h
    have hcross : efield.cross bfield = 0 := by
      obtain rfl | hparallel := h
      · exact Vec3.Parallel.cross_eq_zero ⟨0, .inl (zero_smul ℝ efield).symm⟩
      · exact hparallel.cross_eq_zero
    refine hturned.unique (.of_cross_eq_zero _ ?_)
    rw [drift, Vec3.smul_cross, hcross, smul_zero]

theorem magneticDrift_along_electric_field :
    (⟨0, 0, 1⟩ : Vec3 ℝ).Parallel ⟨0, 0, 1 / 2⟩ ∧
      magneticDrift .electron 2 ⟨0, 0, 1⟩ ⟨0, 0, 1 / 2⟩ =
        drift .electron (2 : ℝ) ⟨0, 0, 1⟩ := by
  have hparallel : (⟨0, 0, 1⟩ : Vec3 ℝ).Parallel ⟨0, 0, 1 / 2⟩ := by
    refine ⟨1 / 2, .inl ?_⟩
    ext <;> norm_num
  obtain ⟨-, -, -, -, hdrift⟩ :=
    magneticDrift_iff_lorentz .electron 2 ⟨0, 0, 1⟩ ⟨0, 0, 1 / 2⟩
  exact ⟨hparallel, hdrift (.inr hparallel)⟩

end Drift

end CarrierTransport
