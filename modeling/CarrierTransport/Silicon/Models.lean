import CarrierTransport.Config
import CarrierTransport.Journal.Logged
import CarrierTransport.Silicon.Detrapping
import CarrierTransport.Silicon.Ionization
import CarrierTransport.Silicon.Mobility
import CarrierTransport.Silicon.Recombination
import CarrierTransport.Silicon.Trapping

/-!
# The models of a propagation

One model of each family, selected by the names in a configuration.
-/

namespace CarrierTransport

variable {α : Type} [Scalar α]

structure Models (α : Type) where
  mobility : Mobility α
  recombination : Recombination α
  trapping : Trapping α
  detrapping : Detrapping α
  ionization : Ionization α

namespace Models

def selectionNotices (kind : ModelKind) (name : String) : List (Notice α) :=
  if kind = .recombination && name = "none" then
    [.lifetimesInfinite, .selected kind name]
  else [.selected kind name]

def announce {β ε : Type} (kind : ModelKind) (name : String)
    (selection : Except ε β) : Logged α ε β := do
  let model ← Logged.ofExcept selection
  (selectionNotices kind name).forM Logged.log
  return model

/-- Every model that a configuration names, in a fixed order; the first that
cannot be had decides. -/
def select (c : Config α) (hasDoping : Bool) :
    Logged α (ConfigError α) (Models α) := do
  let mobility ← announce .mobility c.mobilityModel
    ((Mobility.select c.mobilityModel c.temperature c.parameters
      hasDoping).mapError .model)
  let recombination ← announce .recombination c.recombinationModel
    ((Recombination.select c.recombinationModel c.temperature c.parameters
      hasDoping).mapError .model)
  let trapping ← announce .trapping c.trappingModel
    ((Trapping.select c.trappingModel c.temperature
      c.parameters).mapError .model)
  let detrapping ← announce .detrapping c.detrappingModel
    ((Detrapping.select c.detrappingModel c.parameters).mapError .model)
  let ionization ← announce .multiplication c.multiplicationModel
    ((Ionization.select c.multiplicationModel c.temperature
      c.parameters).mapError .model)
  return ⟨mobility, recombination, trapping, detrapping, ionization⟩

end Models

end CarrierTransport
