import CarrierTransport.Carrier
import CarrierTransport.Vec3

/-!
# Drift velocity

A carrier drifts along the electric field, holes with it and electrons against
it.  A magnetic field turns the drift aside.
-/

namespace CarrierTransport

variable {α : Type} [Arithmetic α]

/-- The ratio of Hall mobility to drift mobility. -/
def hallFactor : Carrier → α
  | .electron => 1.15
  | .hole => 0.9

def drift (carrier : Carrier) (mobility : α) (efield : Vec3 α) : Vec3 α :=
  (carrier.sign * mobility) • efield

/-- The drift velocity in a magnetic field.  The sign of the carrier enters both
the deflection and the drift. -/
def magneticDrift (carrier : Carrier) (mobility : α) (efield bfield : Vec3 α) :
    Vec3 α :=
  let sign : α := carrier.sign
  let hall := mobility * hallFactor carrier
  let deflection := (sign * hall) • efield.cross bfield
  let alignment := (hall * hall * efield.dot bfield) • bfield
  let scale := 1.0 + hall * hall * bfield.dot bfield
  ((sign * mobility) • (efield + deflection + alignment)).dividedBy scale

end CarrierTransport
