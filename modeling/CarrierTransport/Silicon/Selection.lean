import CarrierTransport.Decimal.Shortest

/-!
# Selecting a physical model

A model is selected by name.  A selection fails for one of four causes, and each
has one wording.
-/

namespace CarrierTransport

inductive ModelKind where
  | mobility
  | recombination
  | trapping
  | detrapping
  | multiplication
  deriving DecidableEq, Repr

namespace ModelKind

def name : ModelKind → String
  | mobility => "mobility"
  | recombination => "recombination"
  | trapping => "trapping"
  | detrapping => "detrapping"
  | multiplication => "multiplication"

def option (kind : ModelKind) : String := kind.name ++ "_model"

def all : List ModelKind :=
  [mobility, recombination, trapping, detrapping, multiplication]

end ModelKind

inductive ModelError (α : Type) where
  | unknown (kind : ModelKind) (name : String)
  /-- The model reads the doping and there is no doping profile. -/
  | needsDoping (model : String)
  | missing (model parameter : String)
  | invalid (parameter : String) (value : α)
  deriving Repr

def ModelError.message : ModelError Double → String
  | unknown kind name =>
      s!"unknown {kind.name} model '{name}' for option '{kind.option}'"
  | needsDoping model =>
      s!"model '{model}' is unsuitable: no doping profile available"
  | missing model parameter =>
      s!"model '{model}' requires parameter '{parameter}'"
  | invalid parameter value =>
      s!"parameter '{parameter}' has invalid value {Decimal.shortest value}"

end CarrierTransport
