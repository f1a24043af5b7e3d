/-!
# Faults

What stops a calculation that has already begun.  A configuration that is not
accepted is no fault; it is refused before anything begins.
-/

namespace CarrierTransport

inductive Fault where
  /-- A field gave no answer at a position. -/
  | noField
  /-- The bounds of the timestep are not in order. -/
  | timestepBounds
  /-- A number of steps or of rejected samples ran out. -/
  | unfinished
  deriving DecidableEq, Repr

end CarrierTransport
