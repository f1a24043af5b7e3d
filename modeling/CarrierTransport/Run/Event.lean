import CarrierTransport.Flight.Transport
import CarrierTransport.Run.Deposit
import CarrierTransport.Run.Groups
import CarrierTransport.Run.Statistics

/-!
# Events

A propagation is a sensor with its fields, a configuration that was accepted and
the models that it names.  It carries the deposits of an event in their order,
and the groups of a deposit one after the other.
-/

namespace CarrierTransport

variable {α σ : Type} [Scalar α] [WordSource σ]

structure Propagation (α : Type) where
  config : Config α
  models : Models α
  field : Field α
  sensor : Sensor α

/-- Why there is no propagation: the configuration is refused, or the field has
no answer where it is probed. -/
inductive SetupError (α : Type) where
  | refused (cause : ConfigError α)
  | fault (cause : Fault)

structure EventOutput (α : Type) where
  /-- One for each group, in the order of the deposits. -/
  charges : Array (PropagatedCharge α)
  trajectories : Option (Array (Trajectory α))
  summary : EventSummary α

structure EventProgress (α σ : Type) where
  output : EventOutput α
  source : σ

namespace Propagation

/-- The point close to the top face at which the field is probed. -/
def probe (sensor : Sensor α) : Vec3 α :=
  ⟨sensor.center.x, sensor.center.y, sensor.center.z + sensor.size.z / 2.01⟩

/-- The carrier that a field collects at the top face.  The sign decides, also
that of a zero and of what is not a number. -/
def collected (efield : Vec3 α) : Carrier :=
  if Scalar.isNegative efield.z then .electron else .hole

def checkFields (config : Config α) (field : Field α) (sensor : Sensor α) :
    Logged α Fault Unit := do
  if field.hasElectric then
    let efield ← Logged.ofExcept (field.electric (probe sensor))
    let carrier := collected efield
    if !config.propagates.get carrier then Logged.log (.notCollected carrier)
  else
    Logged.log .noElectricField
  if field.hasMagnetic then
    Logged.log
      (if config.ignoreMagneticField then .magneticFieldIgnored
        else .magneticFieldSeen)

/-- A configuration in force: checked, with its models, in a sensor. -/
def setUp (config : Config α) (field : Field α) (sensor : Sensor α) :
    Logged α (SetupError α) (Propagation α) := do
  Logged.ofExcept (config.validate.mapError .refused)
  let models ←
    ExceptT.adapt .refused (Models.select config field.hasDoping)
  ExceptT.adapt .fault (checkFields config field sensor)
  if models.ionization.isEnabled && (1.0 * Units.ps : α) < config.timestepMax
  then Logged.log .timestepLongForGain
  return ⟨config, models, field, sensor⟩

def transport (p : Propagation α) : Transport α :=
  .ofParts p.config p.models p.field p.sensor

def chargeMax : Nat := UInt32.size - 1

/-- The size of a group times its gain, rounded with a half going up, as large
as a charge can be. -/
def gainedCharge (group : UInt32) (gain : α) : UInt32 :=
  (min (Scalar.nearest (Scalar.ofNat group.toNat * gain)) chargeMax).toUInt32

def skip? (p : Propagation α) (deposit : Deposit α) : Option (Notice α) :=
  if !p.config.propagates.get deposit.carrier then
    some (.carrierSkipped deposit.carrier deposit.localPosition)
  else if p.config.integrationTime < deposit.localTime then
    some (.lateDepositSkipped deposit.globalTime deposit.localTime)
  else none

def groupNotices (group : UInt32) (o : Outcome α) : List (Notice α) :=
  (match o.state with
    | .recombined => [.groupRecombined group o.position o.time]
    | .trapped => [.groupTrapped group o.position o.time]
    | _ => []) ++
  [.groupPropagated group o.position o.time o.gain o.state]

def propagated (p : Propagation α) (index : Nat) (deposit : Deposit α)
    (group : UInt32) (o : Outcome α) : PropagatedCharge α where
  localPosition := o.position
  globalPosition := p.sensor.toGlobal o.position
  carrier := deposit.carrier
  charge := gainedCharge group o.gain
  localTime := deposit.localTime + o.time
  globalTime := deposit.globalTime + o.time
  state := o.state
  deposit := index

def countGroup (s : EventSummary α) (group : UInt32) (o : Outcome α) :
    EventSummary α :=
  { s with
    propagatedCharge := s.propagatedCharge + group.toNat
    recombinedCharge := s.recombinedCharge +
      if o.state = .recombined then group.toNat else 0
    trappedCharge := s.trappedCharge +
      if o.state = .trapped then group.toNat else 0
    chargeGroups := s.chargeGroups + 1
    integrationSteps := s.integrationSteps + o.steps
    weightedTime := s.weightedTime + Scalar.ofNat group.toNat * o.time }

def carryGroup (p : Propagation α) (budget index : Nat) (deposit : Deposit α)
    (progress : EventProgress α σ) (group : UInt32) :
    Logged α Fault (EventProgress α σ) := do
  let ⟨output, source⟩ := progress
  let recorder :=
    output.trajectories.map fun _ => Recorder.start p.config.samplingInterval
  let (outcome, recorder, source) ←
    p.transport.propagate budget deposit.carrier deposit.localPosition
      deposit.localTime recorder source
  (groupNotices group outcome).forM Logged.log
  let trajectory := recorder.map fun recorder =>
    recorder.finish deposit.globalTime group deposit.carrier outcome.diagnostic
  return {
    output :=
      { charges :=
          output.charges.push (p.propagated index deposit group outcome)
        trajectories := output.trajectories.map (· ++ trajectory.toArray)
        summary := countGroup output.summary group outcome }
    source := source }

def countDeposit (s : EventSummary α) (plan : GroupPlan) : EventSummary α :=
  { s with
    deposits := s.deposits + 1
    coarsenedDeposits := s.coarsenedDeposits + if plan.coarsened then 1 else 0 }

def plan (p : Propagation α) (deposit : Deposit α) : GroupPlan :=
  .ofCharge deposit.charge p.config.chargePerStep p.config.maxChargeGroups

def carryDeposit (p : Propagation α) (budget : Nat)
    (progress : EventProgress α σ) (numbered : Deposit α × Nat) :
    Logged α Fault (EventProgress α σ) := do
  let (deposit, index) := numbered
  let ⟨⟨charges, trajectories, summary⟩, source⟩ := progress
  match p.skip? deposit with
  | some reason =>
      Logged.log reason
      let summary :=
        { summary with skippedDeposits := summary.skippedDeposits + 1 }
      return ⟨⟨charges, trajectories, summary⟩, source⟩
  | none =>
      Logged.log (.depositBegun deposit.carrier deposit.localPosition)
      let plan := p.plan deposit
      if plan.coarsened then
        Logged.log (.depositCoarsened deposit.charge plan.size)
      (ChargeGroups.ofPlan deposit.charge plan).toList.foldlM
        (p.carryGroup budget index deposit)
        ⟨⟨charges, trajectories, countDeposit summary plan⟩, source⟩

def begin (p : Propagation α) (source : σ) : EventProgress α σ where
  output :=
    { charges := #[]
      trajectories := if p.config.outputTrajectories then some #[] else none
      summary := .zero }
  source := source

def carryEvent (p : Propagation α) (budget : Nat) (deposits : List (Deposit α))
    (source : σ) : Logged α Fault (EventProgress α σ) := do
  Logged.log .eventBegun
  let progress ←
    deposits.zipIdx.foldlM (p.carryDeposit budget) (p.begin source)
  progress.output.summary.notices.forM Logged.log
  return progress

/-- Carry all deposits of an event and add its summary to the totals of a
run. -/
def runEvent (p : Propagation α) (budget : Nat) (deposits : List (Deposit α))
    (source : σ) (totals : RunTotals) :
    Logged α Fault (EventOutput α × σ × RunTotals) := do
  let progress ← p.carryEvent budget deposits source
  return (progress.output, progress.source,
    totals.record progress.output.summary)

end Propagation

end CarrierTransport
