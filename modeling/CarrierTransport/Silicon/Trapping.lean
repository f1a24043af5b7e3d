import CarrierTransport.Silicon.Parameters
import CarrierTransport.Silicon.Decay
import CarrierTransport.Units

/-!
# Trapping

Every model comes down to an effective trapping time of each carrier, fixed when
the model is built.  For radiation damage it follows from the fluence:
`1 / tau = beta * fluence + offset`.
-/

namespace CarrierTransport

open CarrierTransport.Units

variable {α : Type} [Scalar α]

/-- Effective trapping time from a damage constant in cm²/ns, an offset in 1/ns
and a fluence. -/
def effectiveTrappingTime (beta offset fluence : α) : α :=
  1.0 / (offset / ns + beta * cm * cm / ns * fluence)

/-- Carriers are trapped with the effective times, or never. -/
structure Trapping (α : Type) where
  times : Option (PerCarrier α)

namespace Trapping

def ofDamage (beta offset : PerCarrier α) (fluence : α) : Trapping α where
  times := some
    ⟨effectiveTrappingTime beta.electron offset.electron fluence,
      effectiveTrappingTime beta.hole offset.hole fluence⟩

def select (name : String) (temperature : α) (parameters : Parameters α) :
    Except (ModelError α) (Trapping α) :=
  match name with
  | "none" => .ok ⟨none⟩
  | "constant" => do
      let pair ←
        Parameters.requirePair name "trapping_time" parameters.trappingTime
      return ⟨some pair⟩
  | "ljubljana" | "kramberger" => do
      let fluence ← Parameters.requireFluence name parameters.fluence
      let reduced := temperature / 263.0
      return .ofDamage
        ⟨5.6e-16 * Scalar.power reduced (-0.86),
          7.7e-16 * Scalar.power reduced (-1.52)⟩
        ⟨0.0, 0.0⟩ fluence
  | "dortmund" | "krasel" => do
      let fluence ← Parameters.requireFluence name parameters.fluence
      return .ofDamage ⟨5.13e-16, 5.04e-16⟩ ⟨0.0, 0.0⟩ fluence
  | "cmstracker" => do
      let fluence ← Parameters.requireFluence name parameters.fluence
      return .ofDamage ⟨1.71e-16, 2.79e-16⟩ ⟨0.114, 0.093⟩ fluence
  | _ => .error (.unknown .trapping name)

def captures (m : Trapping α) (carrier : Carrier) (draw timestep : α) : Bool :=
  match m.times with
  | none => false
  | some times => decaysWithin draw timestep (times.get carrier)

end Trapping

end CarrierTransport
