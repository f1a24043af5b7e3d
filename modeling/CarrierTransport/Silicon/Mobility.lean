import CarrierTransport.Silicon.Parameters
import CarrierTransport.Units

/-!
# Mobility

The drift mobility of a carrier as a function of the field magnitude and of the
doping concentration.  Some models read the field only, some the doping only and
one reads both.
-/

namespace CarrierTransport

open CarrierTransport.Units

variable {α : Type} [Scalar α]

/-- The unit of the literature for mobilities: cm²/(V·s). -/
def mobilityUnit : α := cm * cm / (volt * s)

/-- Saturation of the drift velocity:
`mu(E) = (v / E_c) / (1 + (E / E_c) ^ beta) ^ (1 / beta)`. -/
structure SaturatingMobility (α : Type) where
  saturationVelocity : PerCarrier α
  criticalField : PerCarrier α
  beta : PerCarrier α

namespace SaturatingMobility

/-- The fit at a temperature, up to the scale of the electron velocity. -/
def withElectronVelocity (temperature velocity : α) : SaturatingMobility α where
  saturationVelocity :=
    ⟨velocity * cm / s * Scalar.power temperature (-0.87),
      1.62e8 * cm / s * Scalar.power temperature (-0.52)⟩
  criticalField :=
    ⟨1.01 * volt / cm * Scalar.power temperature 1.55,
      1.24 * volt / cm * Scalar.power temperature 1.68⟩
  beta :=
    ⟨2.57e-2 * Scalar.power temperature 0.66,
      0.46 * Scalar.power temperature 0.17⟩

def jacoboni (temperature : α) : SaturatingMobility α :=
  withElectronVelocity temperature 1.53e9

def canali (temperature : α) : SaturatingMobility α :=
  withElectronVelocity temperature 1.43e9

def evaluate (m : SaturatingMobility α) (carrier : Carrier) (efield : α) : α :=
  let velocity := m.saturationVelocity.get carrier
  let critical := m.criticalField.get carrier
  let beta := m.beta.get carrier
  velocity / critical /
    Scalar.power (1.0 + Scalar.power (efield / critical) beta) (1.0 / beta)

end SaturatingMobility

/-- Electrons: `1 / mu = 1 / mu_0 + E / v`.  Holes: constant `mu_0` below `E_0`,
above it `1 / mu = 1 / mu_0 + b (E - E_0) + c (E - E_0)²`. -/
structure HamburgMobility (α : Type) where
  electronLow : α
  electronSaturation : α
  holeLow : α
  holeLinear : α
  holeQuadratic : α
  holeOnset : α

namespace HamburgMobility

def atTemperature (temperature : α) : HamburgMobility α :=
  let reduced := temperature / 300.0
  { electronLow := 1530.0 * cm * cm / (volt * s) * Scalar.power reduced (-2.42)
    electronSaturation := 1.03e7 * cm / s * Scalar.power reduced (-0.226)
    holeLow := 464.0 * cm * cm / (volt * s) * Scalar.power reduced (-2.20)
    holeLinear := 9.57e-8 * s / cm * Scalar.power reduced (-0.101)
    holeQuadratic := -3.31e-13 * s / volt
    holeOnset := 2640.0 * volt / cm * Scalar.power reduced 0.526 }

def evaluate (m : HamburgMobility α) (carrier : Carrier) (efield : α) : α :=
  match carrier with
  | .electron => 1.0 / (1.0 / m.electronLow + efield / m.electronSaturation)
  | .hole =>
      if efield < m.holeOnset then m.holeLow
      else
        let excess := efield - m.holeOnset
        1.0 / (1.0 / m.holeLow + m.holeLinear * excess +
          m.holeQuadratic * excess * excess)

end HamburgMobility

structure MasettiFit (α : Type) where
  floorLow : α
  floorHigh : α
  drop : α
  floorDoping : α
  middleDoping : α
  highDoping : α
  middleExponent : α
  highExponent : α
  lattice : α

/-- The mobility at a doping of either sign; the lattice mobility without
doping. -/
def MasettiFit.evaluate (fit : MasettiFit α) (doping : α) : α :=
  let n := Scalar.abs doping
  if n == 0.0 then fit.lattice
  else
    let floor :=
      if fit.floorDoping > 0.0 then
        fit.floorLow * Scalar.exp (-fit.floorDoping / n)
      else fit.floorLow
    floor + (fit.lattice - fit.floorHigh) /
        (1.0 + Scalar.power (n / fit.middleDoping) fit.middleExponent) -
      fit.drop / (1.0 + Scalar.power (fit.highDoping / n) fit.highExponent)

/-- Low-field mobility with the coefficients of arsenic for electrons and of
boron for holes; only the lattice mobility depends on the temperature. -/
def masetti (temperature : α) : PerCarrier (MasettiFit α) :=
  let reduced := temperature / 300.0
  { electron :=
      { floorLow := 52.2 * mobilityUnit
        floorHigh := 52.2 * mobilityUnit
        drop := 43.4 * mobilityUnit
        floorDoping := 0.0
        middleDoping := 9.68e16 * perCm3
        highDoping := 3.43e20 * perCm3
        middleExponent := 0.680
        highExponent := 2.0
        lattice := 1414.0 * mobilityUnit * Scalar.power reduced (-2.5) }
    hole :=
      { floorLow := 44.9 * mobilityUnit
        floorHigh := 0.0
        drop := 29.0 * mobilityUnit
        floorDoping := 9.23e16 * perCm3
        middleDoping := 2.23e17 * perCm3
        highDoping := 6.10e20 * perCm3
        middleExponent := 0.719
        highExponent := 2.0
        lattice := 470.5 * mobilityUnit * Scalar.power reduced (-2.2) } }

/-- `mu = mu_min + mu_0 / (1 + (N / N_ref) ^ alpha)`. -/
structure AroraMobility (α : Type) where
  floor : PerCarrier α
  span : PerCarrier α
  reference : PerCarrier α
  exponent : α

namespace AroraMobility

def atTemperature (temperature : α) : AroraMobility α :=
  let reduced := temperature / 300.0
  let floor : PerCarrier α :=
    ⟨88.0 * Scalar.power reduced (-0.57), 54.3 * Scalar.power reduced (-0.57)⟩
  let span : PerCarrier α :=
    ⟨7.4e8 * Scalar.power temperature (-2.33),
      1.36e8 * Scalar.power temperature (-2.23)⟩
  let reference : PerCarrier α := ⟨1.26e17, 2.35e17⟩
  { floor := floor.map (· * mobilityUnit)
    span := span.map (· * mobilityUnit)
    reference := reference.map (· * perCm3 * Scalar.power reduced 2.4)
    exponent := 0.88 * Scalar.power reduced (-0.146) }

def evaluate (m : AroraMobility α) (carrier : Carrier) (doping : α) : α :=
  m.floor.get carrier + m.span.get carrier /
    (1.0 + Scalar.power (Scalar.abs doping / m.reference.get carrier)
      m.exponent)

end AroraMobility

/-- A doping-dependent low-field mobility that saturates at high fields:
`mu = mu_m / (1 + (mu_m E / v) ^ beta) ^ (1 / beta)`. -/
structure MasettiCanaliMobility (α : Type) where
  lowField : PerCarrier (MasettiFit α)
  saturationVelocity : PerCarrier α
  beta : PerCarrier α

namespace MasettiCanaliMobility

def atTemperature (temperature : α) : MasettiCanaliMobility α :=
  let canali := SaturatingMobility.canali temperature
  { lowField := masetti temperature
    saturationVelocity := canali.saturationVelocity
    beta := canali.beta }

def evaluate (m : MasettiCanaliMobility α) (carrier : Carrier)
    (efield doping : α) : α :=
  let low := (m.lowField.get carrier).evaluate doping
  let beta := m.beta.get carrier
  let ratio := low * efield / m.saturationVelocity.get carrier
  low / Scalar.power (1.0 + Scalar.power ratio beta) (1.0 / beta)

end MasettiCanaliMobility

inductive Mobility (α : Type) where
  | saturating (model : SaturatingMobility α)
  | hamburg (model : HamburgMobility α)
  | masetti (model : PerCarrier (MasettiFit α))
  | arora (model : AroraMobility α)
  | masettiCanali (model : MasettiCanaliMobility α)
  | constant (mobility : PerCarrier α)

namespace Mobility

def select (name : String) (temperature : α) (parameters : Parameters α)
    (hasDoping : Bool) : Except (ModelError α) (Mobility α) :=
  match name with
  | "jacoboni" => .ok (.saturating (.jacoboni temperature))
  | "canali" => .ok (.saturating (.canali temperature))
  | "hamburg" => .ok (.hamburg (.atTemperature temperature))
  | "masetti" => do
      Parameters.requireDoping name hasDoping
      return .masetti (CarrierTransport.masetti temperature)
  | "arora" => do
      Parameters.requireDoping name hasDoping
      return .arora (.atTemperature temperature)
  | "masetti_canali" => do
      Parameters.requireDoping name hasDoping
      return .masettiCanali (.atTemperature temperature)
  | "constant" => do
      let pair ← Parameters.requirePair name "mobility" parameters.mobility
      return .constant pair
  | _ => .error (.unknown .mobility name)

def evaluate (m : Mobility α) (carrier : Carrier) (efield doping : α) : α :=
  match m with
  | saturating model => model.evaluate carrier efield
  | hamburg model => model.evaluate carrier efield
  | masetti model => (model.get carrier).evaluate doping
  | arora model => model.evaluate carrier doping
  | masettiCanali model => model.evaluate carrier efield doping
  | constant mobility => mobility.get carrier

def readsDoping : Mobility α → Bool
  | masetti _ | arora _ | masettiCanali _ => true
  | saturating _ | hamburg _ | constant _ => false

end Mobility

end CarrierTransport
