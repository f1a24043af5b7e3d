import Mathlib.Algebra.Module.Basic
import CarrierTransport.Proofs.Scalar.Real
import CarrierTransport.Vec3

/-!
# Exact vectors

Vectors of real numbers are a module over them.
-/

namespace CarrierTransport

namespace Vec3

noncomputable instance : Zero (Vec3 ℝ) := ⟨.zero⟩

noncomputable instance : Neg (Vec3 ℝ) := ⟨fun v => ⟨-v.x, -v.y, -v.z⟩⟩

@[simp] theorem zero_x : (0 : Vec3 ℝ).x = 0 := decimal_zero

@[simp] theorem zero_y : (0 : Vec3 ℝ).y = 0 := zero_x

@[simp] theorem zero_z : (0 : Vec3 ℝ).z = 0 := zero_x

@[simp] theorem neg_x (v : Vec3 ℝ) : (-v).x = -v.x := rfl

@[simp] theorem neg_y (v : Vec3 ℝ) : (-v).y = -v.y := rfl

@[simp] theorem neg_z (v : Vec3 ℝ) : (-v).z = -v.z := rfl

noncomputable instance : AddCommGroup (Vec3 ℝ) where
  add_assoc _ _ _ := Vec3.ext (add_assoc _ _ _) (add_assoc _ _ _)
    (add_assoc _ _ _)
  zero_add v := by
    ext <;> simp
  add_zero v := by
    ext <;> simp
  neg_add_cancel v := by
    ext <;> simp
  add_comm _ _ := Vec3.ext (add_comm _ _) (add_comm _ _) (add_comm _ _)
  sub_eq_add_neg _ _ := Vec3.ext (sub_eq_add_neg _ _) (sub_eq_add_neg _ _)
    (sub_eq_add_neg _ _)
  nsmul := nsmulRec
  zsmul := zsmulRec

noncomputable instance : Module ℝ (Vec3 ℝ) where
  one_smul v := by
    ext <;> simp
  mul_smul a b v := Vec3.ext (mul_assoc _ _ _) (mul_assoc _ _ _)
    (mul_assoc _ _ _)
  smul_zero a := by
    ext <;> simp
  smul_add a v w := Vec3.ext (mul_add _ _ _) (mul_add _ _ _) (mul_add _ _ _)
  add_smul a b v := Vec3.ext (add_mul _ _ _) (add_mul _ _ _) (add_mul _ _ _)
  zero_smul v := by
    ext <;> simp

theorem norm_nonneg (v : Vec3 ℝ) : 0 ≤ v.norm := Real.sqrt_nonneg _

theorem norm_zero : (0 : Vec3 ℝ).norm = 0 := by
  simp [norm, dot, Scalar.sqrt]

/-! ## Products -/

section Products

variable (u v w : Vec3 ℝ) (s : ℝ)

theorem dividedBy_eq_smul : v.dividedBy s = s⁻¹ • v := by
  ext <;> simp only [dividedBy, smul_x, smul_y, smul_z] <;> ring

theorem dot_comm : u.dot v = v.dot u := by
  simp only [dot]
  ring

theorem dot_add : u.dot (v + w) = u.dot v + u.dot w := by
  simp only [dot, add_x, add_y, add_z]
  ring

theorem dot_self_add :
    (u + v).dot (u + v) = u.dot u + 2 * u.dot v + v.dot v := by
  simp only [dot, add_x, add_y, add_z]
  ring

theorem dot_smul : u.dot (s • v) = s * u.dot v := by
  simp only [dot, smul_x, smul_y, smul_z]
  ring

theorem smul_dot_smul (r : ℝ) : (r • u).dot (s • v) = r * s * u.dot v := by
  simp only [dot, smul_x, smul_y, smul_z]
  ring

theorem dot_self_nonneg : 0 ≤ v.dot v :=
  add_nonneg (add_nonneg (mul_self_nonneg v.x) (mul_self_nonneg v.y))
    (mul_self_nonneg v.z)

theorem add_cross : (u + v).cross w = u.cross w + v.cross w := by
  ext <;> simp only [cross, add_x, add_y, add_z] <;> ring

theorem sub_cross : (u - v).cross w = u.cross w - v.cross w := by
  ext <;> simp only [cross, sub_x, sub_y, sub_z] <;> ring

theorem smul_cross : (s • u).cross v = s • u.cross v := by
  ext <;> simp only [cross, smul_x, smul_y, smul_z] <;> ring

theorem cross_self : v.cross v = 0 := by
  ext <;> simp only [cross, zero_x, zero_y, zero_z] <;> ring

theorem dot_cross_left : u.dot (u.cross v) = 0 := by
  simp only [dot, cross]
  ring

theorem dot_cross_right : v.dot (u.cross v) = 0 := by
  simp only [dot, cross]
  ring

theorem cross_cross_right :
    (u.cross v).cross v = u.dot v • v - v.dot v • u := by
  ext <;>
    simp only [cross, dot, sub_x, sub_y, sub_z, smul_x, smul_y, smul_z] <;>
    ring

variable {u v w s}

theorem eq_zero_of_dot_self (h : v.dot v = 0) : v = 0 := by
  have hx := mul_self_nonneg v.x
  have hy := mul_self_nonneg v.y
  have hz := mul_self_nonneg v.z
  simp only [dot] at h
  refine Vec3.ext ?_ ?_ ?_
  · exact (mul_self_eq_zero.mp (by linarith)).trans zero_x.symm
  · exact (mul_self_eq_zero.mp (by linarith)).trans zero_y.symm
  · exact (mul_self_eq_zero.mp (by linarith)).trans zero_z.symm

/-- One of two vectors is a multiple of the other. -/
def Parallel (u v : Vec3 ℝ) : Prop := ∃ k : ℝ, v = k • u ∨ u = k • v

theorem Parallel.cross_eq_zero (h : u.Parallel v) : u.cross v = 0 := by
  obtain ⟨k, rfl | rfl⟩ := h
  · ext <;>
      simp only [cross, smul_x, smul_y, smul_z, zero_x, zero_y, zero_z] <;>
      ring
  · rw [smul_cross, cross_self, smul_zero]

end Products

end Vec3

end CarrierTransport
