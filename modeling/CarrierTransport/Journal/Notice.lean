import CarrierTransport.Carrier
import CarrierTransport.Decimal.Fixed
import CarrierTransport.Decimal.Shortest
import CarrierTransport.Silicon.Selection
import CarrierTransport.Vec3

/-!
# Notices

What the library has to say while it works: each notice has a level and one
wording.
-/

namespace CarrierTransport

/-- Levels, the gravest first. -/
inductive Level where
  | error
  | warn
  | info
  | debug
  | trace
  deriving DecidableEq, Repr

namespace Level

def name : Level → String
  | error => "ERROR"
  | warn => "WARN"
  | info => "INFO"
  | debug => "DEBUG"
  | trace => "TRACE"

def depth : Level → Nat
  | error => 0
  | warn => 1
  | info => 2
  | debug => 3
  | trace => 4

end Level

inductive Notice (α : Type) where
  | selected (kind : ModelKind) (name : String)
  | lifetimesInfinite
  | noElectricField
  | notCollected (carrier : Carrier)
  | magneticFieldIgnored
  | magneticFieldSeen
  | timestepLongForGain
  | eventBegun
  | carrierSkipped (carrier : Carrier) (position : Vec3 α)
  | lateDepositSkipped (globalTime localTime : α)
  | depositBegun (carrier : Carrier) (position : Vec3 α)
  | depositCoarsened (charge groupSize : UInt32)
  | diffusionSkipped (width : α)
  | released (delay : α)
  | stepTaken (start stop : Vec3 α) (time : α) (state : CarrierState)
  | breakdown (gain efield : α)
  | gained (gain length startField stopField : α)
  | recombinedAfter (time : α)
  | trappedAfter (time : α) (position : Vec3 α)
  | groupRecombined (charge : UInt32) (position : Vec3 α) (time : α)
  | groupTrapped (charge : UInt32) (position : Vec3 α) (time : α)
  | groupPropagated (charge : UInt32) (position : Vec3 α) (time gain : α)
      (state : CarrierState)
  | eventPropagated (charge groups steps : Nat) (averageTime : α)
  | eventRecombined (charge : Nat)
  | eventTrapped (charge : Nat)
  | runPropagated (charge groups steps : UInt64) (averageTime : α)
  | runCoarsened (percentage : α) (maxGroups chargePerStep : UInt32)
  | runSkipped (deposits : UInt64)
  | trajectoriesForbidParallel
  | workersStarted (count : Nat)
  | eventFailed (event : UInt64)
  | eventsLost (lost submitted : Nat)

namespace Notice

def level {α : Type} : Notice α → Level
  | eventFailed _ | eventsLost _ _ => .error
  | noElectricField | notCollected _ | magneticFieldIgnored
  | timestepLongForGain | breakdown _ _ | trajectoriesForbidParallel => .warn
  | selected _ _ | lifetimesInfinite | depositCoarsened _ _
  | eventPropagated _ _ _ _ | eventRecombined _ | eventTrapped _
  | runPropagated _ _ _ _ | runCoarsened _ _ _ | runSkipped _ => .info
  | magneticFieldSeen | carrierSkipped _ _ | lateDepositSkipped _ _
  | depositBegun _ _ | released _ | gained _ _ _ _ | recombinedAfter _
  | trappedAfter _ _ | groupRecombined _ _ _ | groupTrapped _ _ _
  | groupPropagated _ _ _ _ _ | workersStarted _ => .debug
  | eventBegun | diffusionSkipped _ | stepTaken _ _ _ _ => .trace

/-- What a family of models is called when one of them is selected. -/
def familyText : ModelKind → String
  | .multiplication => "impact ionization"
  | kind => kind.name

def pointText (p : Vec3 Double) : String :=
  "\x7b" ++ Decimal.shortest p.x ++ ", " ++ Decimal.shortest p.y ++ ", " ++
    Decimal.shortest p.z ++ "\x7d"

def message : Notice Double → String
  | selected kind name => s!"Selected {familyText kind} model \"{name}\""
  | lifetimesInfinite =>
      "No charge carrier recombination model chosen, finite lifetime not " ++
        "simulated"
  | noElectricField => "This detector does not have an electric field."
  | notCollected carrier =>
      s!"Electric field indicates {carrier.name} collection at implants, " ++
        s!"but {carrier.name}s are not propagated!"
  | magneticFieldIgnored =>
      "A magnetic field is switched on, but is set to be ignored for this " ++
        "module."
  | magneticFieldSeen => "This detector sees a magnetic field."
  | timestepLongForGain =>
      "Charge multiplication enabled with maximum timestep larger than 1ps. " ++
        "This might lead to unphysical gain values."
  | eventBegun => "Propagating charges in sensor"
  | carrierSkipped carrier position =>
      s!"Skipping charge carriers ({carrier.name}) on {pointText position}"
  | lateDepositSkipped globalTime localTime =>
      "Skipping charge carriers deposited beyond integration time: " ++
        s!"{Decimal.shortest globalTime} ns global / " ++
        s!"{Decimal.shortest localTime} ns local"
  | depositBegun carrier position =>
      s!"Set of charge carriers ({carrier.name}) on {pointText position}"
  | depositCoarsened charge groupSize =>
      s!"Deposited charge: {charge}, which exceeds the maximum number of " ++
        "charge groups allowed. Increasing charge_per_step to " ++
        s!"{groupSize} for this deposit."
  | diffusionSkipped width =>
      s!"Skipping diffusion with invalid width {Decimal.shortest width}"
  | released delay =>
      s!"De-trapping charge carrier after {Decimal.fixed 4 delay} ns"
  | stepTaken start stop time state =>
      s!"Step from {pointText start} to {pointText stop} at " ++
        s!"{Decimal.fixed 6 time} ns, state: {state.name}"
  | breakdown gain efield =>
      s!"Detected gain of {Decimal.shortest gain}, local electric field of " ++
        s!"{Decimal.shortest efield} MV/mm, diode seems to be in breakdown"
  | gained gain length startField stopField =>
      s!"Calculated gain of {Decimal.shortest gain} for step of " ++
        s!"{Decimal.shortest length} mm from field of " ++
        s!"{Decimal.shortest startField} to {Decimal.shortest stopField} MV/mm"
  | recombinedAfter time =>
      s!"Charge carrier recombined after {Decimal.fixed 4 time} ns"
  | trappedAfter time position =>
      s!"Charge carrier trapped after {Decimal.fixed 4 time} ns at " ++
        pointText position
  | groupRecombined charge position time =>
      s!" Recombined {charge} at {pointText position} in " ++
        s!"{Decimal.fixed 4 time} ns time, removing"
  | groupTrapped charge position time =>
      s!" Trapped {charge} at {pointText position} in " ++
        s!"{Decimal.fixed 4 time} ns time, removing"
  | groupPropagated charge position time gain state =>
      s!" Propagated {charge} to {pointText position} in " ++
        s!"{Decimal.fixed 4 time} ns time, gain {Decimal.shortest gain}, " ++
        s!"final state: {state.name}"
  | eventPropagated charge groups steps averageTime =>
      s!"Propagated {charge} charges in {groups} groups ({steps} steps) in " ++
        s!"average time of {Decimal.fixed 4 averageTime} ns"
  | eventRecombined charge =>
      s!"Recombined {charge} charges during transport"
  | eventTrapped charge => s!"Trapped {charge} charges during transport"
  | runPropagated charge groups steps averageTime =>
      s!"Propagated total of {charge} charges in {groups} groups " ++
        s!"({steps} steps) in average time of " ++
        s!"{Decimal.fixed 4 averageTime} ns"
  | runCoarsened percentage maxGroups chargePerStep =>
      s!"{Decimal.fixed 2 percentage}% of deposits have charge exceeding " ++
        s!"the {maxGroups} charge groups allowed, with a charge_per_step " ++
        s!"value of {chargePerStep}"
  | runSkipped deposits => s!"Skipped {deposits} deposits"
  | trajectoriesForbidParallel =>
      "Trajectory recording enabled, disabling parallel event processing"
  | workersStarted count => s!"Started {count} propagation workers"
  | eventFailed event =>
      s!"Propagation of event {event} panicked, dropping it"
  | eventsLost lost submitted =>
      s!"Lost {lost} of {submitted} events to failed propagation"

end Notice

end CarrierTransport
