import CarrierTransport.Carrier
import CarrierTransport.Vec3

/-!
# Deposited and propagated charge

An event is a list of deposits; its result is a list of propagated charges, each
of which names its deposit by its place in that list.
-/

namespace CarrierTransport

/-- The number of an event, which selects its random stream. -/
structure EventId where
  val : UInt64
  deriving DecidableEq, Repr

namespace EventId

instance : LE EventId := ⟨fun a b => a.val ≤ b.val⟩

instance (a b : EventId) : Decidable (a ≤ b) :=
  inferInstanceAs (Decidable (a.val ≤ b.val))

end EventId

structure Deposit (α : Type) where
  localPosition : Vec3 α
  globalPosition : Vec3 α
  carrier : Carrier
  charge : UInt32
  /-- The time on the clock of the sensor. -/
  localTime : α
  /-- The time since the start of the event. -/
  globalTime : α
  deriving DecidableEq, Repr

structure PropagatedCharge (α : Type) where
  localPosition : Vec3 α
  globalPosition : Vec3 α
  carrier : Carrier
  /-- The size of the group times its gain. -/
  charge : UInt32
  localTime : α
  globalTime : α
  state : CarrierState
  /-- The place of the deposit in its event. -/
  deposit : Nat
  deriving DecidableEq, Repr

namespace Deposit

variable {α : Type}

/-- A deposit in a frame that is local and global at once. -/
def ofLocal (position : Vec3 α) (carrier : Carrier) (charge : UInt32)
    (time : α) : Deposit α :=
  ⟨position, position, carrier, charge, time, time⟩

variable [Scalar α]

def electrons (position : Vec3 α) (charge : UInt32) : Deposit α :=
  ofLocal position .electron charge 0.0

def holes (position : Vec3 α) (charge : UInt32) : Deposit α :=
  ofLocal position .hole charge 0.0

/-- Where point `i` of `count` lies on the way, from zero to one; a single point
lies in the middle. -/
def trackFraction (count i : Nat) : α :=
  if 1 < count then Scalar.ofNat i / Scalar.ofNat (count - 1) else 0.5

/-- Pairs of electrons and holes spread evenly along `z`, as a straight particle
leaves them. -/
def alongZ (count : Nat) (first last : α) (charge : UInt32) :
    List (Deposit α) :=
  (List.range count).flatMap fun i =>
    let position : Vec3 α :=
      ⟨0.0, 0.0, first + trackFraction count i * (last - first)⟩
    [electrons position charge, holes position charge]

end Deposit

end CarrierTransport
