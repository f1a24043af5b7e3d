import CarrierTransport.Run.Event

/-!
# Reference sensors

Ready-made sensors of 300 µm at 100 kV/cm, for comparison of one run with
another.
-/

namespace CarrierTransport.Profiles

variable {α : Type} [Scalar α]

def thickness : α := 300.0 * Units.um

def sensor : Sensor α :=
  Box.sensor ⟨.zero, ⟨2.0, 2.0, thickness⟩⟩ none

def field : Field α :=
  .uniform ⟨0.0, 0.0, -0.01⟩ none (some (-1e12 * Units.perCm3))

def referenceConfig : Config α :=
  { Config.standard with propagates := ⟨true, true⟩ }

/-- The same after a fluence of 1e15 per cm², with recombination, trapping and
release. -/
def irradiatedConfig : Config α :=
  { referenceConfig with
    recombinationModel := "srh"
    trappingModel := "ljubljana"
    detrappingModel := "constant"
    parameters :=
      { (Parameters.standard : Parameters α) with
        fluence := some (1e15 * Units.perCm2)
        detrappingTime := ⟨some (1.0 * Units.ns), some (1.0 * Units.ns)⟩ } }

def reference : Logged α (SetupError α) (Propagation α) :=
  Propagation.setUp referenceConfig field sensor

def irradiated : Logged α (SetupError α) (Propagation α) :=
  Propagation.setUp irradiatedConfig field sensor

/-- Deposits along a track through nearly the whole thickness. -/
def trackDeposits (points : Nat) (charge : UInt32) : List (Deposit α) :=
  let edge : α := 0.49 * thickness
  Deposit.alongZ points (-edge) edge charge

end CarrierTransport.Profiles
