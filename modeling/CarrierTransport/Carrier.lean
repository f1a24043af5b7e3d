import CarrierTransport.Scalar

/-!
# Charge carriers
-/

namespace CarrierTransport

inductive Carrier where
  | electron
  | hole
  deriving DecidableEq, Repr, Inhabited

/-- What has become of a group of carriers.  A group is in `motion` until
something ends it; it is still in `motion` afterwards when the integration
window closed first.  Only a recorded trajectory is ever `unknown`. -/
inductive CarrierState where
  | motion
  | halted
  | recombined
  | trapped
  | unknown
  deriving DecidableEq, Repr, Inhabited

structure PerCarrier (β : Type) where
  electron : β
  hole : β
  deriving DecidableEq, Repr, Inhabited

namespace Carrier

def name : Carrier → String
  | electron => "electron"
  | hole => "hole"

def sign {α : Type} [Arithmetic α] : Carrier → α
  | electron => -1.0
  | hole => 1.0

end Carrier

namespace CarrierState

def name : CarrierState → String
  | motion => "motion"
  | halted => "halted"
  | recombined => "recombined"
  | trapped => "trapped"
  | unknown => "unknown"

def isTerminal : CarrierState → Bool
  | motion => false
  | _ => true

end CarrierState

namespace PerCarrier

variable {β γ : Type}

def get (p : PerCarrier β) : Carrier → β
  | .electron => p.electron
  | .hole => p.hole

def map (f : β → γ) (p : PerCarrier β) : PerCarrier γ :=
  ⟨f p.electron, f p.hole⟩

@[simp] theorem get_map (f : β → γ) (p : PerCarrier β) (c : Carrier) :
    (p.map f).get c = f (p.get c) := by
  cases c <;> rfl

end PerCarrier

end CarrierTransport
