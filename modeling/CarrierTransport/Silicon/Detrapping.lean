import CarrierTransport.Silicon.Parameters

/-!
# Detrapping

How long a captured carrier stays: for ever, or for a time that is exponentially
distributed.
-/

namespace CarrierTransport

variable {α : Type} [Scalar α]

/-- The mean time of capture, or no release. -/
structure Detrapping (α : Type) where
  mean : Option (PerCarrier α)

namespace Detrapping

def select (name : String) (parameters : Parameters α) :
    Except (ModelError α) (Detrapping α) :=
  match name with
  | "none" => .ok ⟨none⟩
  | "constant" => do
      let pair ←
        Parameters.requirePair name "detrapping_time" parameters.detrappingTime
      return ⟨some pair⟩
  | _ => .error (.unknown .detrapping name)

/-- The time until release, by inversion of the distribution at a draw in
`[0, 1)`; none if there is no release. -/
def delay? (m : Detrapping α) (carrier : Carrier) (draw : α) : Option α :=
  m.mean.map fun mean => -Scalar.ln (1.0 - draw) * mean.get carrier

end Detrapping

end CarrierTransport
