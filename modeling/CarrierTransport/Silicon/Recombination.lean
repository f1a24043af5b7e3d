import CarrierTransport.Silicon.Parameters
import CarrierTransport.Silicon.Decay
import CarrierTransport.Units

/-!
# Recombination

Each model gives a lifetime; whether a carrier recombines within a step is the
decay test of that lifetime.
-/

namespace CarrierTransport

open CarrierTransport.Units

variable {α : Type} [Scalar α]

/-- The carrier in minority at a doping: holes in n-type material, electrons
otherwise. -/
def minorityCarrier (doping : α) : Carrier :=
  if doping > 0.0 then .hole else .electron

/-- Recombination over defects, `tau = tau_ref / (1 + |N| / N_ref)` scaled with
the temperature. -/
structure ShockleyReadHall (α : Type) where
  lifetimeReference : PerCarrier α
  dopingReference : PerCarrier α
  temperatureScaling : α

namespace ShockleyReadHall

def atTemperature (temperature : α) : ShockleyReadHall α where
  lifetimeReference := ⟨1e-5 * s, 4.0e-4 * s⟩
  dopingReference := ⟨1e16 * perCm3, 7.1e15 * perCm3⟩
  temperatureScaling := Scalar.power (300.0 / temperature) 1.5

def lifetime (m : ShockleyReadHall α) (carrier : Carrier) (doping : α) : α :=
  m.lifetimeReference.get carrier /
      (1.0 + Scalar.abs doping / m.dopingReference.get carrier) *
    m.temperatureScaling

end ShockleyReadHall

/-- Recombination of minority carriers in high doping, `tau = 1 / (C N²)`. -/
structure Auger (α : Type) where
  coefficient : α

namespace Auger

def standard : Auger α where
  coefficient := 3.8e-31 * (cm * cm * cm * cm * cm * cm) / s

def lifetime (m : Auger α) (doping : α) : α :=
  1.0 / (m.coefficient * doping * doping)

end Auger

/-- Both together: a minority carrier sees the two rates added, a majority
carrier the defects alone. -/
structure ShockleyReadHallAuger (α : Type) where
  defects : ShockleyReadHall α
  auger : Auger α

def ShockleyReadHallAuger.lifetime (m : ShockleyReadHallAuger α)
    (carrier : Carrier) (doping : α) : α :=
  let defects := m.defects.lifetime carrier doping
  if minorityCarrier doping ≠ carrier then defects
  else 1.0 / (1.0 / defects + 1.0 / m.auger.lifetime doping)

inductive Recombination (α : Type) where
  | none
  | shockleyReadHall (model : ShockleyReadHall α)
  | auger (model : Auger α)
  | combined (model : ShockleyReadHallAuger α)
  | constant (lifetime : PerCarrier α)

namespace Recombination

def select (name : String) (temperature : α) (parameters : Parameters α)
    (hasDoping : Bool) : Except (ModelError α) (Recombination α) :=
  match name with
  | "none" => .ok .none
  | "srh" => do
      Parameters.requireDoping name hasDoping
      return .shockleyReadHall (.atTemperature temperature)
  | "auger" => do
      Parameters.requireDoping name hasDoping
      return .auger .standard
  | "srh_auger" | "combined" => do
      Parameters.requireDoping name hasDoping
      return .combined ⟨.atTemperature temperature, .standard⟩
  | "constant" => do
      let pair ← Parameters.requirePair name "lifetime" parameters.lifetime
      return .constant pair
  | _ => .error (.unknown .recombination name)

def lifetime? (m : Recombination α) (carrier : Carrier) (doping : α) :
    Option α :=
  match m with
  | none => Option.none
  | shockleyReadHall model => some (model.lifetime carrier doping)
  | auger model => some (model.lifetime doping)
  | combined model => some (model.lifetime carrier doping)
  | constant lifetime => some (lifetime.get carrier)

def affects (m : Recombination α) (carrier : Carrier) (doping : α) : Bool :=
  match m with
  | auger _ => minorityCarrier doping == carrier
  | _ => true

def recombines (m : Recombination α) (carrier : Carrier)
    (doping draw timestep : α) : Bool :=
  match m.lifetime? carrier doping with
  | Option.none => false
  | some lifetime =>
      m.affects carrier doping && decaysWithin draw timestep lifetime

end Recombination

end CarrierTransport
