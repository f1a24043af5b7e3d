import CarrierTransport.Carrier
import CarrierTransport.Silicon.Selection

/-!
# Parameters of the models

Some models take numbers of the user.  The checks here are the only ones made on
them.
-/

namespace CarrierTransport

variable {α : Type} [Scalar α]

structure Parameters (α : Type) where
  mobility : PerCarrier (Option α)
  lifetime : PerCarrier (Option α)
  trappingTime : PerCarrier (Option α)
  detrappingTime : PerCarrier (Option α)
  /-- Fluence in equivalents of neutrons of 1 MeV. -/
  fluence : Option α
  /-- The field below which nothing multiplies. -/
  multiplicationThreshold : α

namespace Parameters

/-- Nothing given; the threshold of multiplication is 100 kV/cm. -/
def standard : Parameters α where
  mobility := ⟨none, none⟩
  lifetime := ⟨none, none⟩
  trappingTime := ⟨none, none⟩
  detrappingTime := ⟨none, none⟩
  fluence := none
  multiplicationThreshold := 1e-2

def require (model parameter : String) :
    Option α → Except (ModelError α) α
  | none => .error (.missing model parameter)
  | some value =>
      if Scalar.isFinite value then .ok value
      else .error (.invalid parameter value)

def requirePositive (model parameter : String) (given : Option α) :
    Except (ModelError α) α := do
  let value ← require model parameter given
  if value ≤ 0.0 then .error (.invalid parameter value) else .ok value

def requirePair (model parameter : String) (given : PerCarrier (Option α)) :
    Except (ModelError α) (PerCarrier α) := do
  let electron ←
    requirePositive model (parameter ++ "_electron") given.electron
  let hole ← requirePositive model (parameter ++ "_hole") given.hole
  return ⟨electron, hole⟩

/-- The fluence of a model of radiation damage: finite and not negative. -/
def requireFluence (model : String) (given : Option α) :
    Except (ModelError α) α := do
  let value ← require model "fluence" given
  if value < 0.0 then .error (.invalid "fluence" value) else .ok value

/-- A model that reads the doping needs a doping profile. -/
def requireDoping (model : String) (hasDoping : Bool) :
    Except (ModelError α) Unit :=
  if hasDoping then .ok () else .error (.needsDoping model)

end Parameters

end CarrierTransport
