import CarrierTransport.Config
import CarrierTransport.Flight.Diffusion
import CarrierTransport.Flight.RungeKutta
import CarrierTransport.Sensor.Field
import CarrierTransport.Sensor.Geometry
import CarrierTransport.Silicon.Drift
import CarrierTransport.Silicon.Models

/-!
# One step of a flight

A group of carriers drifts for one timestep and is displaced by diffusion.  Then
it is seen whether it has left the sensor, whether it recombines and whether it
is captured; the three are decided one after the other and the last one that
applies decides the fate.  Random numbers are drawn in a fixed order: three
normal samples, a number for recombination, one for trapping, and one for the
release if there was a capture.
-/

namespace CarrierTransport

variable {α σ : Type} [Scalar α] [WordSource σ]

/-- All that a flight depends on, its start and its random numbers apart. -/
structure Transport (α : Type) where
  config : Config α
  models : Models α
  field : Field α
  sensor : Sensor α
  tableau : Tableau α

structure Flight (α σ : Type) where
  motion : Motion α
  lastPosition : Vec3 α
  /-- The field magnitude at the end of the last drift. -/
  efield : α
  gain : α
  steps : Nat
  state : CarrierState
  source : σ

/-- Whether a group was captured, and what came of it. -/
inductive Capture (α : Type) where
  | free
  | released (delay : α)
  /-- Not released in time, or never. -/
  | held (delay : Option α)

structure StepReport (α σ : Type) where
  before : Flight α σ
  drift : Increment α
  efield : α
  spread : Spread α
  position : Vec3 α
  exited : Bool
  recombined : Bool
  capture : Capture α
  factor : α
  /-- The timestep of the next step; none if its bounds are not in order. -/
  nextTimestep : Option α
  source : σ

namespace StepReport

/-- The state after a step that began in motion. -/
def state (r : StepReport α σ) : CarrierState :=
  match r.capture with
  | .held _ => .trapped
  | _ =>
      if r.recombined then .recombined
      else if r.exited then .halted
      else .motion

/-- The time since the start, with the delay of a release. -/
def time (r : StepReport α σ) : α :=
  match r.capture with
  | .released delay => r.drift.after.time + delay
  | _ => r.drift.after.time

def gain (r : StepReport α σ) : α := r.before.gain * r.factor

def after? (r : StepReport α σ) : Option (Flight α σ) :=
  r.nextTimestep.map fun timestep =>
    { motion := ⟨r.position, r.time, timestep⟩
      lastPosition := r.before.motion.position
      efield := r.efield
      gain := r.gain
      steps := r.before.steps + 1
      state := r.state
      source := r.source }

def breakdownGain : α := 20.0

def gainNotices (r : StepReport α σ) : List (Notice α) :=
  if breakdownGain < r.gain then [.breakdown r.gain r.efield]
  else if (1.0 : α) < r.gain then
    [.gained r.gain r.drift.step.norm r.before.efield r.efield]
  else []

/-- What is said of a step of a group deposited at `start`. -/
def notices (start : α) (r : StepReport α σ) : List (Notice α) :=
  r.spread.notices ++
  (match r.capture with
    | .released delay => [.released delay]
    | _ => []) ++
  [.stepTaken r.before.motion.position r.position (start + r.time) r.state] ++
  r.gainNotices

end StepReport

/-- The timestep after a step: shorter close to the top face and where the step
was not precise, longer where it was more precise than needed, and always within
its bounds. -/
def Config.nextTimestep? (c : Config α)
    (timestep distance stepZ uncertainty : α) : Option α :=
  let next :=
    if Scalar.abs distance < 2.0 * stepZ then timestep * 0.75
    else if c.spatialPrecision < uncertainty then timestep * 0.75
    else if 2.0 * uncertainty < c.spatialPrecision then timestep * 1.5
    else timestep
  Scalar.clamp? next c.timestepMin c.timestepMax

namespace Transport

def ofParts (config : Config α) (models : Models α) (field : Field α)
    (sensor : Sensor α) : Transport α :=
  ⟨config, models, field, sensor, .ofScheme config.scheme⟩

def isMagnetic (t : Transport α) : Bool :=
  t.field.hasMagnetic && !t.config.ignoreMagneticField

def velocity (t : Transport α) (carrier : Carrier) (p : Vec3 α) :
    Except Fault (Vec3 α) := do
  let efield ← t.field.electric p
  let doping ← t.field.doping p
  let mobility := t.models.mobility.evaluate carrier efield.norm doping
  if t.isMagnetic then
    let bfield ← t.field.magnetic p
    return magneticDrift carrier mobility efield bfield
  else
    return CarrierTransport.drift carrier mobility efield

/-- Whether a group deposited at `start` is still within the integration window
after `time`. -/
def inWindow (t : Transport α) (start time : α) : Bool :=
  start + time < t.config.integrationTime

/-- What becomes of a capture after `time`: a release has to fall within the
window. -/
def settle (t : Transport α) (carrier : Carrier) (start time draw : α) :
    Capture α :=
  match t.models.detrapping.delay? carrier draw with
  | none => .held none
  | some delay =>
      if start + time + delay < t.config.integrationTime then .released delay
      else .held (some delay)

def drawCapture (t : Transport α) (carrier : Carrier) (start time timestep : α)
    (source : σ) : Capture α × σ :=
  let (draw, source) := Random.uniform source
  if t.models.trapping.captures carrier draw timestep then
    let (draw, source) := Random.uniform source
    (t.settle carrier start time draw, source)
  else (.free, source)

/-- One step of a group deposited at `start` on the clock of the sensor. -/
def step (t : Transport α) (carrier : Carrier) (start : α)
    (f : Flight α σ) : Except Fault (StepReport α σ) := do
  let timestep := f.motion.timestep
  let drift ← f.motion.advance t.tableau fun _ p => t.velocity carrier p
  let efield := (← t.field.electric drift.after.position).norm
  let doping ← t.field.doping drift.after.position
  let mobility := t.models.mobility.evaluate carrier efield doping
  match diffuse f.source mobility t.config.temperature timestep with
  | none => throw .unfinished
  | some (spread, source) =>
    let position := drift.after.position + spread.displacement
    let doping ← t.field.doping position
    let (draw, source) := Random.uniform source
    let recombined :=
      t.models.recombination.recombines carrier doping draw timestep
    let (capture, source) :=
      t.drawCapture carrier start drift.after.time timestep source
    let factor := t.models.ionization.gain carrier
      ((efield + f.efield) / 2.0) drift.step.norm
    return {
      before := f
      drift := drift
      efield := efield
      spread := spread
      position := position
      exited := !t.sensor.contains position
      recombined := recombined
      capture := capture
      factor := factor
      nextTimestep := t.config.nextTimestep? timestep
        (t.sensor.topFace - position.z) drift.step.z drift.error.norm
      source := source }

end Transport

end CarrierTransport
