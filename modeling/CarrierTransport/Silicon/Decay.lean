import CarrierTransport.Scalar

/-!
# Exponential decay

Recombination and trapping are decays: a carrier of lifetime `τ` survives a step
of length `h` with probability `exp (-h / τ)`.
-/

namespace CarrierTransport

variable {α : Type} [Scalar α]

def decayProbability (timestep lifetime : α) : α :=
  1.0 - Scalar.exp (-timestep / lifetime)

/-- Whether a carrier decays within `timestep`, decided by a draw in
`[0, 1)`. -/
def decaysWithin (draw timestep lifetime : α) : Bool :=
  draw < decayProbability timestep lifetime

end CarrierTransport
