import CarrierTransport.Carrier
import CarrierTransport.Vec3

/-!
# Trajectories

A recorder keeps the position of a group at multiples of a sampling interval.
-/

namespace CarrierTransport

structure Trajectory (α : Type) where
  startTime : α
  /-- The size of the group before any gain. -/
  charge : UInt32
  carrier : Carrier
  state : CarrierState
  points : Array (Vec3 α)

structure Recorder (α : Type) where
  interval : α
  points : Array (Vec3 α)

namespace Recorder

variable {α : Type} [Scalar α]

def start (interval : α) : Recorder α := ⟨interval, #[]⟩

/-- Fill every sampling time up to `time` that has no point yet with
`position`.  As a word the slot of `time` would saturate, and slots from
`2 ^ 64 - 1` on would not be told apart.  That is left out: memory runs out long
before a recorder holds so many points. -/
def sample (r : Recorder α) (time : α) (position : Vec3 α) : Recorder α :=
  let slot := Scalar.wholePart (time / r.interval)
  let missing := slot + 1 - r.points.size
  { r with points := r.points ++ Array.replicate missing position }

def finish (r : Recorder α) (startTime : α) (charge : UInt32)
    (carrier : Carrier) (state : CarrierState) : Trajectory α :=
  ⟨startTime, charge, carrier, state, r.points⟩

end Recorder

/-- The state under which a trajectory is recorded.  The fate of a group that
ran out of time or ended at the back of the sensor counts as unknown. -/
def diagnosticState (state : CarrierState) (expired backside : Bool) :
    CarrierState :=
  if expired || backside then .unknown else state

end CarrierTransport
