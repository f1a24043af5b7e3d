import CarrierTransport.Journal.Notice
import CarrierTransport.Random.Normal
import CarrierTransport.Units
import CarrierTransport.Vec3

/-!
# Diffusion

During a step a carrier is displaced at random along each axis.  The width of
the displacement follows from the mobility: `D = k T mu`, `sigma² = 2 D h`.
-/

namespace CarrierTransport

variable {α σ : Type} [Scalar α] [WordSource σ]

/-- The displacement of one step.  A width that is no finite number is refused,
and then nothing is drawn. -/
inductive Spread (α : Type) where
  | drawn (displacement : Vec3 α)
  | refused (width : α)

def Spread.displacement : Spread α → Vec3 α
  | drawn displacement => displacement
  | refused _ => .zero

def Spread.notices : Spread α → List (Notice α)
  | drawn _ => []
  | refused width => [.diffusionSkipped width]

def diffusionVariance (mobility temperature timestep : α) : α :=
  2.0 * (Units.boltzmann * temperature * mobility) * timestep

/-- Whether a variance has a width that is a finite number. -/
def hasWidth (variance : α) : Bool :=
  !(variance < 0.0 : Bool) && Scalar.isFinite (Scalar.sqrt variance)

def normalVector (width : α) (source : σ) : Option (Vec3 α × σ) := do
  let (x, source) ← Random.normal width source
  let (y, source) ← Random.normal width source
  let (z, source) ← Random.normal width source
  return (⟨x, y, z⟩, source)

def diffuse (source : σ) (mobility temperature timestep : α) :
    Option (Spread α × σ) :=
  let variance := diffusionVariance mobility temperature timestep
  let width := Scalar.sqrt variance
  if hasWidth variance then
    (normalVector width source).map fun (v, source) => (.drawn v, source)
  else some (.refused width, source)

end CarrierTransport
