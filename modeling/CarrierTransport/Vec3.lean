import CarrierTransport.Scalar

/-!
# Points and vectors

One type serves for positions and for displacements, velocities and fields.
-/

namespace CarrierTransport

@[ext] structure Vec3 (α : Type) where
  x : α
  y : α
  z : α
  deriving BEq, DecidableEq, Repr, Inhabited

namespace Vec3

variable {α : Type}

section Arithmetic

variable [Arithmetic α]

def zero : Vec3 α := ⟨0.0, 0.0, 0.0⟩

instance : Add (Vec3 α) := ⟨fun a b => ⟨a.x + b.x, a.y + b.y, a.z + b.z⟩⟩

instance : Sub (Vec3 α) := ⟨fun a b => ⟨a.x - b.x, a.y - b.y, a.z - b.z⟩⟩

instance : SMul α (Vec3 α) := ⟨fun s v => ⟨s * v.x, s * v.y, s * v.z⟩⟩

def dividedBy (v : Vec3 α) (s : α) : Vec3 α := ⟨v.x / s, v.y / s, v.z / s⟩

def dot (a b : Vec3 α) : α := a.x * b.x + a.y * b.y + a.z * b.z

def cross (a b : Vec3 α) : Vec3 α :=
  ⟨a.y * b.z - a.z * b.y, a.z * b.x - a.x * b.z, a.x * b.y - a.y * b.x⟩

@[simp] theorem add_x (a b : Vec3 α) : (a + b).x = a.x + b.x := rfl
@[simp] theorem add_y (a b : Vec3 α) : (a + b).y = a.y + b.y := rfl
@[simp] theorem add_z (a b : Vec3 α) : (a + b).z = a.z + b.z := rfl
@[simp] theorem sub_x (a b : Vec3 α) : (a - b).x = a.x - b.x := rfl
@[simp] theorem sub_y (a b : Vec3 α) : (a - b).y = a.y - b.y := rfl
@[simp] theorem sub_z (a b : Vec3 α) : (a - b).z = a.z - b.z := rfl
@[simp] theorem smul_x (s : α) (v : Vec3 α) : (s • v).x = s * v.x := rfl
@[simp] theorem smul_y (s : α) (v : Vec3 α) : (s • v).y = s * v.y := rfl
@[simp] theorem smul_z (s : α) (v : Vec3 α) : (s • v).z = s * v.z := rfl

end Arithmetic

variable [Scalar α]

def norm (v : Vec3 α) : α := Scalar.sqrt (v.dot v)

def isZero (v : Vec3 α) : Bool := v.x == 0.0 && v.y == 0.0 && v.z == 0.0

end Vec3

end CarrierTransport
