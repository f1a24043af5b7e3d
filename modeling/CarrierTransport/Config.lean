import CarrierTransport.Flight.RungeKutta
import CarrierTransport.Silicon.Parameters
import CarrierTransport.Units

/-!
# Configuration

The options of a propagation and the checks made on them before any model is
built.
-/

namespace CarrierTransport

variable {α : Type} [Scalar α]

structure Config (α : Type) where
  spatialPrecision : α
  timestepStart : α
  timestepMin : α
  timestepMax : α
  /-- The time on the clock of the sensor at which transport stops. -/
  integrationTime : α
  chargePerStep : UInt32
  /-- The number of groups that a deposit may have; no limit when zero. -/
  maxChargeGroups : UInt32
  temperature : α
  mobilityModel : String
  recombinationModel : String
  trappingModel : String
  detrappingModel : String
  multiplicationModel : String
  parameters : Parameters α
  propagates : PerCarrier Bool
  ignoreMagneticField : Bool
  scheme : Scheme
  outputTrajectories : Bool
  trajectoryStep : Option α

inductive ConfigError (α : Type) where
  | model (cause : ModelError α)
  | noCarrier
  | invalidOption (option : String) (value : α)
  | invalidTimesteps (min start max : α)
  | zeroChargePerStep
  deriving Repr

namespace ConfigError

def message : ConfigError Double → String
  | model cause => "model: " ++ cause.message
  | noCarrier =>
      "not propagating any charge carrier type, enable electrons or holes"
  | invalidOption option value =>
      s!"{option} must be finite and positive, got {Decimal.shortest value}"
  | invalidTimesteps min start max =>
      "timesteps must satisfy min <= start <= max, got " ++
        s!"{Decimal.shortest min} / {Decimal.shortest start} / " ++
        Decimal.shortest max
  | zeroChargePerStep => "charge_per_step must be at least 1"

def source : ConfigError α → Option (ModelError α)
  | model cause => some cause
  | _ => none

end ConfigError

namespace Config

/-- Electrons only, nothing but drift and diffusion, 25 ns at 293.15 K. -/
def standard : Config α where
  spatialPrecision := 0.25 * Units.nm
  timestepStart := 0.01 * Units.ns
  timestepMin := 0.001 * Units.ns
  timestepMax := 0.5 * Units.ns
  integrationTime := 25.0 * Units.ns
  chargePerStep := 10
  maxChargeGroups := 1000
  temperature := 293.15
  mobilityModel := "jacoboni"
  recombinationModel := "none"
  trappingModel := "none"
  detrappingModel := "none"
  multiplicationModel := "none"
  parameters := .standard
  propagates := ⟨true, false⟩
  ignoreMagneticField := false
  scheme := .fehlberg
  outputTrajectories := false
  trajectoryStep := none

/-- The options that have to be finite and positive, in the order in which they
are checked. -/
def positiveOptions (c : Config α) : List (String × α) :=
  [("spatial_precision", c.spatialPrecision),
    ("timestep_start", c.timestepStart),
    ("timestep_min", c.timestepMin),
    ("timestep_max", c.timestepMax),
    ("integration_time", c.integrationTime),
    ("temperature", c.temperature)] ++
  c.trajectoryStep.toList.map fun step => ("trajectory_step", step)

def checkPositive (option : String × α) : Except (ConfigError α) Unit :=
  if Scalar.isFinite option.2 && (0.0 : α) < option.2 then .ok ()
  else .error (.invalidOption option.1 option.2)

/-- The checks on the options, in order; the first that fails decides. -/
def validate (c : Config α) : Except (ConfigError α) Unit := do
  c.positiveOptions.forM checkPositive
  if !(c.timestepMin ≤ c.timestepStart && c.timestepStart ≤ c.timestepMax) then
    throw (.invalidTimesteps c.timestepMin c.timestepStart c.timestepMax)
  if c.chargePerStep = 0 then throw .zeroChargePerStep
  if !c.propagates.electron && !c.propagates.hole then throw .noCarrier

def samplingInterval (c : Config α) : α := c.trajectoryStep.getD c.timestepMax

end Config

end CarrierTransport
