import Mathlib.Algebra.Field.Rat
import Mathlib.Data.Fintype.Basic
import CarrierTransport.Vec3

/-!
# Exact fractions

The rational numbers as numbers of the formulas, and vectors by their
components.
-/

namespace CarrierTransport

instance : Arithmetic ℚ where
  toAdd := inferInstance
  toSub := inferInstance
  toNeg := inferInstance
  toMul := inferInstance
  toDiv := inferInstance
  toOfScientific := inferInstance

inductive Axis where
  | x
  | y
  | z
  deriving DecidableEq

instance : Fintype Axis := ⟨{.x, .y, .z}, fun axis => by cases axis <;> decide⟩

namespace Vec3

variable {α : Type}

def component (v : Vec3 α) : Axis → α
  | .x => v.x
  | .y => v.y
  | .z => v.z

def ofComponents (f : Axis → α) : Vec3 α := ⟨f .x, f .y, f .z⟩

@[simp] theorem component_ofComponents (f : Axis → α) (axis : Axis) :
    (ofComponents f).component axis = f axis := by
  cases axis <;> rfl

theorem ext_component {u v : Vec3 α}
    (h : ∀ axis, u.component axis = v.component axis) : u = v :=
  Vec3.ext (h .x) (h .y) (h .z)

section Arithmetic

variable [Arithmetic α] (u v : Vec3 α) (s : α) (axis : Axis)

@[simp] theorem component_add :
    (u + v).component axis = u.component axis + v.component axis := by
  cases axis <;> rfl

@[simp] theorem component_sub :
    (u - v).component axis = u.component axis - v.component axis := by
  cases axis <;> rfl

@[simp] theorem component_smul :
    (s • v).component axis = s * v.component axis := by
  cases axis <;> rfl

end Arithmetic

@[simp] theorem component_zero (axis : Axis) :
    (zero : Vec3 ℚ).component axis = 0 := by
  have hzero : (0.0 : ℚ) = 0 := by decide +kernel
  cases axis <;> exact hzero

end Vec3

end CarrierTransport
