import CarrierTransport.Silicon.Parameters
import CarrierTransport.Units

/-!
# Impact ionization

In high fields a carrier frees others.  A model gives an ionization coefficient
per length; a step multiplies the charge by `exp (coefficient * length)` above a
threshold field and by exactly one below it.
-/

namespace CarrierTransport

open CarrierTransport.Units

variable {α : Type} [Scalar α]

structure IonizationLaw (α : Type) where
  rate : α
  field : α

/-- Coefficient `A exp (-B / E)`. -/
structure Massey (α : Type) where
  law : PerCarrier (IonizationLaw α)

namespace Massey

def atTemperature (temperature : α) : Massey α where
  law :=
    ⟨⟨4.43e5 / cm, (9.66e5 + 4.99e2 * temperature) * volt / cm⟩,
      ⟨1.13e6 / cm, (1.71e6 + 1.09e3 * temperature) * volt / cm⟩⟩

def coefficient (m : Massey α) (carrier : Carrier) (efield : α) : α :=
  let law := m.law.get carrier
  law.rate * Scalar.exp (-law.field / efield)

end Massey

/-- Coefficient `gamma A exp (-gamma B / E)`; holes have two laws, one below and
one from a switching field on. -/
structure VanOverstraeten (α : Type) where
  gamma : α
  electron : IonizationLaw α
  holeLow : IonizationLaw α
  holeHigh : IonizationLaw α
  holeSwitch : α

namespace VanOverstraeten

def atTemperature (temperature : α) : VanOverstraeten α :=
  let phonon : α := 0.063 * electronvolt
  { gamma :=
      Scalar.tanh (phonon / (2.0 * boltzmann * 300.0)) /
        Scalar.tanh (phonon / (2.0 * boltzmann * temperature))
    electron := ⟨7.03e5 / cm, 1.231e6 * volt / cm⟩
    holeLow := ⟨1.582e6 / cm, 2.036e6 * volt / cm⟩
    holeHigh := ⟨6.71e5 / cm, 1.693e6 * volt / cm⟩
    holeSwitch := 4e5 * volt / cm }

def law (m : VanOverstraeten α) (carrier : Carrier) (efield : α) :
    IonizationLaw α :=
  match carrier with
  | .electron => m.electron
  | .hole => if efield < m.holeSwitch then m.holeLow else m.holeHigh

def coefficient (m : VanOverstraeten α) (carrier : Carrier) (efield : α) : α :=
  let law := m.law carrier efield
  m.gamma * law.rate * Scalar.exp (-m.gamma * law.field / efield)

end VanOverstraeten

/-- Coefficient `a E exp (-(b / E)²)`, both numbers linear in the
temperature. -/
structure OkutoCrowell (α : Type) where
  law : PerCarrier (IonizationLaw α)

namespace OkutoCrowell

def atTemperature (temperature : α) : OkutoCrowell α :=
  let excess := temperature - 300.0
  { law :=
      ⟨⟨0.426 / volt * (1.0 + 3.05e-4 * excess),
          4.81e5 * volt / cm * (1.0 + 6.86e-4 * excess)⟩,
        ⟨0.243 / volt * (1.0 + 5.35e-4 * excess),
          6.53e5 * volt / cm * (1.0 + 5.67e-4 * excess)⟩⟩ }

def coefficient (m : OkutoCrowell α) (carrier : Carrier) (efield : α) : α :=
  let law := m.law.get carrier
  let ratio := law.field / efield
  law.rate * efield * Scalar.exp (-ratio * ratio)

end OkutoCrowell

inductive IonizationModel (α : Type) where
  | none
  | massey (model : Massey α)
  | vanOverstraeten (model : VanOverstraeten α)
  | okutoCrowell (model : OkutoCrowell α)

namespace IonizationModel

def coefficient (m : IonizationModel α) (carrier : Carrier) (efield : α) : α :=
  match m with
  | none => 0.0
  | massey model => model.coefficient carrier efield
  | vanOverstraeten model => model.coefficient carrier efield
  | okutoCrowell model => model.coefficient carrier efield

/-- The model of a name at a temperature, before its threshold is checked. -/
def ofName? (name : String) (temperature : α) : Option (IonizationModel α) :=
  match name with
  | "none" => some .none
  | "massey" => some (.massey (.atTemperature temperature))
  | "overstraeten" | "vanoverstraeten" =>
      some (.vanOverstraeten (.atTemperature temperature))
  | "okuto" | "okutocrowell" =>
      some (.okutoCrowell (.atTemperature temperature))
  | _ => Option.none

end IonizationModel

/-- A model of impact ionization and the field below which it does not act. -/
structure Ionization (α : Type) where
  model : IonizationModel α
  threshold : α

namespace Ionization

/-- The model of a name at a temperature.  The threshold has to be finite and
not negative, whatever the model. -/
def select (name : String) (temperature : α) (parameters : Parameters α) :
    Except (ModelError α) (Ionization α) :=
  match IonizationModel.ofName? name temperature with
  | none => .error (.unknown .multiplication name)
  | some model =>
      let threshold := parameters.multiplicationThreshold
      if !Scalar.isFinite threshold || threshold < 0.0 then
        .error (.invalid "multiplication_threshold" threshold)
      else .ok ⟨model, threshold⟩

def isEnabled (m : Ionization α) : Bool :=
  match m.model with
  | .none => false
  | _ => true

def gain (m : Ionization α) (carrier : Carrier) (efield length : α) : α :=
  if !m.isEnabled || efield < m.threshold then 1.0
  else Scalar.exp (m.model.coefficient carrier efield * length)

end Ionization

end CarrierTransport
