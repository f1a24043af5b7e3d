import CarrierTransport.Flight.Step
import CarrierTransport.Flight.Trajectory

/-!
# Flights

A flight is a sequence of steps.  It ends when its group leaves the sensor,
recombines or is trapped, or when the integration window closes.
-/

namespace CarrierTransport

variable {α σ ω : Type} [Scalar α] [WordSource σ]

structure Outcome (α : Type) where
  /-- On the surface of the sensor if the group has left it. -/
  position : Vec3 α
  /-- The time since the start, with all delays. -/
  time : α
  gain : α
  state : CarrierState
  steps : Nat
  diagnostic : CarrierState

/-- The share of the thickness next to the back face that counts as backside. -/
def backsideShare : α := 0.05

/-- The number of steps after which a flight is given up. -/
def ampleSteps : Nat := 1 <<< 62

namespace Transport

def launch (t : Transport α) (position : Vec3 α) (efield : α) (source : σ) :
    Flight α σ where
  motion := .start position t.config.timestepStart
  lastPosition := position
  efield := efield
  gain := 1.0
  steps := 0
  state := .motion
  source := source

def isFlying (t : Transport α) (start : α) (f : Flight α σ) : Bool :=
  !f.state.isTerminal && t.inWindow start f.motion.time

/-- Steps until the flight ends, each of them shown to an observer.  After
`budget` steps a flight that has not ended is given up. -/
def fly (t : Transport α) (carrier : Carrier) (start : α)
    (observe : StepReport α σ → ω → ω) :
    Nat → Flight α σ → ω → Except Fault (Flight α σ) × ω
  | 0, f, seen =>
      (if t.isFlying start f then .error .unfinished else .ok f, seen)
  | budget + 1, f, seen =>
      if t.isFlying start f then
        match t.step carrier start f with
        | .error fault => (.error fault, seen)
        | .ok report =>
            let seen := observe report seen
            match report.after? with
            | none => (.error .timestepBounds, seen)
            | some f => t.fly carrier start observe budget f seen
      else (.ok f, seen)

def outcome (t : Transport α) (start : α) (f : Flight α σ) : Outcome α :=
  let position :=
    if f.state = .halted then
      t.sensor.intercept f.lastPosition f.motion.position
    else f.motion.position
  let expired : Bool := t.config.integrationTime ≤ start + f.motion.time
  let backside : Bool :=
    f.lastPosition.z < t.sensor.backFace + backsideShare * t.sensor.size.z
  { position := position
    time := f.motion.time
    gain := f.gain
    state := f.state
    steps := f.steps
    diagnostic := diagnosticState f.state expired backside }

def outcomeNotices (o : Outcome α) : List (Notice α) :=
  match o.state with
  | .recombined => [.recombinedAfter o.time]
  | .trapped => [.trappedAfter o.time o.position]
  | _ => []

/-- The journal and, if there is one, the recorder watch every step.  The
recorder is shown the position before the step. -/
def watch (start : α) (report : StepReport α σ)
    (seen : Journal α × Option (Recorder α)) :
    Journal α × Option (Recorder α) :=
  ((report.notices start).foldl Journal.record seen.1,
    seen.2.map fun recorder =>
      recorder.sample report.before.motion.time report.before.motion.position)

/-- The flight of one group from `position`, deposited at `start` on the clock
of the sensor. -/
def propagate (t : Transport α) (budget : Nat) (carrier : Carrier)
    (position : Vec3 α) (start : α) (recorder : Option (Recorder α))
    (source : σ) :
    Logged α Fault (Outcome α × Option (Recorder α) × σ) := do
  let efield ← Logged.ofExcept (t.field.electric position)
  let (ended, recorder) ← modifyGet fun journal =>
    let (ended, journal, recorder) :=
      t.fly carrier start (watch start) budget
        (t.launch position efield.norm source) (journal, recorder)
    ((ended, recorder), journal)
  let f ← Logged.ofExcept ended
  let outcome := t.outcome start f
  (outcomeNotices outcome).forM Logged.log
  return (outcome, recorder, f.source)

end Transport

end CarrierTransport
