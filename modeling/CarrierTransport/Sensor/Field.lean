import CarrierTransport.Fault
import CarrierTransport.Vec3

/-!
# Fields

The electric field, the magnetic field and the doping concentration of a sensor
at positions in its own frame.  A field may have no answer at a position.
-/

namespace CarrierTransport

structure Field (α : Type) where
  electric : Vec3 α → Except Fault (Vec3 α)
  magnetic : Vec3 α → Except Fault (Vec3 α)
  /-- Positive in n-type material, negative in p-type. -/
  doping : Vec3 α → Except Fault α
  hasElectric : Bool
  hasMagnetic : Bool
  hasDoping : Bool

namespace Field

variable {α : Type} [Scalar α]

/-- The same everywhere; a magnetic field and a doping that are not given are
zero. -/
def uniform (electric : Vec3 α) (magnetic : Option (Vec3 α))
    (doping : Option α) : Field α where
  electric _ := .ok electric
  magnetic _ := .ok (magnetic.getD .zero)
  doping _ := .ok (doping.getD 0.0)
  hasElectric := !electric.isZero
  hasMagnetic := magnetic.isSome
  hasDoping := doping.isSome

def empty : Field α := uniform .zero none none

end Field

end CarrierTransport
