import CarrierTransport.Proofs.Flight.Multiplication
import CarrierTransport.Proofs.Run.Output
import CarrierTransport.Proofs.Run.Setup

/-!
# What watches a propagation

The recorder of a flight, the trajectories of an event and the totals of a run
watch what happens and have no part in it.  Neither has the gain: another model
of multiplication changes the charges of an event and nothing else of it.
-/

namespace CarrierTransport

variable {α σ β γ : Type}

def Config.withRecording (c : Config α) (asked : Bool) (step : Option α) :
    Config α :=
  { c with outputTrajectories := asked, trajectoryStep := step }

def Transport.withRecording (t : Transport α) (asked : Bool)
    (step : Option α) : Transport α :=
  { t with config := t.config.withRecording asked step }

def PropagatedCharge.ungained (c : PropagatedCharge α) : PropagatedCharge α :=
  { c with charge := 0 }

/-- An output but for the charges of its groups. -/
def EventOutput.ungained (o : EventOutput α) : EventOutput α :=
  { o with charges := o.charges.map PropagatedCharge.ungained }

/-! ## Flights of groups -/

namespace GroupFlight

def unrecorded (f : GroupFlight α) : GroupFlight α := { f with recorder := none }

/-- What the summary of an event counts of a flight. -/
def tally (f : GroupFlight α) : UInt32 × CarrierState × Nat × α :=
  (f.group, f.outcome.state, f.outcome.steps, f.outcome.time)

variable {flights others : List (GroupFlight α)}

theorem chargeIn_of_tally (h : others.map tally = flights.map tally)
    (state : CarrierState) : chargeIn state others = chargeIn state flights := by
  have hcharge (flights : List (GroupFlight α)) : chargeIn state flights =
      (((flights.map tally).filter (·.2.1 = state)).map (·.1.toNat)).sum := by
    rw [List.filter_map, List.map_map]
    rfl
  rw [hcharge, h, hcharge]

variable [Scalar α]

theorem timeFrom_of_tally (h : others.map tally = flights.map tally)
    (time : α) : timeFrom time others = timeFrom time flights := by
  have htime (flights : List (GroupFlight α)) : timeFrom time flights =
      (flights.map tally).foldl
        (fun sum counts => sum + Scalar.ofNat counts.1.toNat * counts.2.2.2)
        time := by
    rw [List.foldl_map]
    rfl
  rw [htime, h, htime]

def ungained (f : GroupFlight α) : GroupFlight α :=
  { f with outcome := f.outcome.ungained }

end GroupFlight

variable [Scalar α]

namespace Propagation

def withRecording (p : Propagation α) (asked : Bool) (step : Option α) :
    Propagation α :=
  { p with config := p.config.withRecording asked step }

def withMultiplication (p : Propagation α) (name : String)
    (ionization : Ionization α) : Propagation α :=
  { p with
    config := p.config.withMultiplication name ionization.threshold
    models := p.models.withIonization ionization }

section Output

theorem transport_withRecording (p : Propagation α) (asked : Bool)
    (step : Option α) : (p.withRecording asked step).transport =
      p.transport.withRecording asked step := rfl

theorem transport_withMultiplication (p : Propagation α) (name : String)
    (ionization : Ionization α) :
    (p.withMultiplication name ionization).transport =
      p.transport.withMultiplication name ionization := rfl

variable {p q : Propagation α}

/-- The summary of an event counts its deposits and what is counted of its
flights. -/
theorem summary_outputOf (haccepts : q.accepts = p.accepts)
    (hplan : q.plan = p.plan) (deposits : List (Deposit α))
    {flights others : List (GroupFlight α)}
    (h : others.map GroupFlight.tally = flights.map GroupFlight.tally) :
    (q.outputOf deposits others).summary =
      (p.outputOf deposits flights).summary := by
  have hgroups : others.map (·.group.toNat) = flights.map (·.group.toNat) :=
    map_congr_of_map h (·.1.toNat)
  have hsteps : others.map (·.outcome.steps) =
      flights.map (·.outcome.steps) := map_congr_of_map h (·.2.2.1)
  have hlength : others.length = flights.length := by
    simpa only [List.length_map] using congrArg List.length h
  simp only [outputOf, haccepts, hplan, hgroups, hsteps, hlength,
    GroupFlight.chargeIn_of_tally h, GroupFlight.timeFrom_of_tally h]

end Output

/-- Both propagations fly every group the same but for what `ψ` leaves out. -/
def FliesAlike (p : Propagation α) (σ : Type) [WordSource σ]
    (q : Propagation α) (budget : Nat) (ψ : GroupFlight α → β) : Prop :=
  ∀ (d : Deposit α) (index : Nat) (group : UInt32) (source : σ),
    (fun flown => (ψ ⟨d, index, group, flown.1, flown.2.1⟩, flown.2.2)) <$>
        (q.transport.propagate budget d.carrier d.localPosition d.localTime
          q.recorder? source).result =
      (fun flown => (ψ ⟨d, index, group, flown.1, flown.2.1⟩, flown.2.2)) <$>
        (p.transport.propagate budget d.carrier d.localPosition d.localTime
          p.recorder? source).result

variable [WordSource σ]

section Congruence

variable {p q : Propagation α} {budget : Nat} {ψ : GroupFlight α → β}

/-- The flights of an event, one after the other, are the same but for that
part. -/
theorem flyLoads_congr (hflight : p.FliesAlike σ q budget ψ)
    (loads : List (Deposit α × Nat × UInt32)) (source : σ) :
    (fun flown => (flown.1.map ψ, flown.2)) <$>
        q.flyLoads budget loads source =
      (fun flown => (flown.1.map ψ, flown.2)) <$>
        p.flyLoads budget loads source := by
  induction loads generalizing source with
  | nil => rfl
  | cons load loads ih =>
      obtain ⟨d, index, group⟩ := load
      simp only [flyLoads, map_bind]
      -- Both leave the same source, so the next flight begins alike.
      refine bind_congr_of_map (hflight d index group source) ?_
      rintro ⟨o, recorder, next⟩ ⟨o', recorder', next'⟩ hfirst
      obtain ⟨hfirst, rfl⟩ := Prod.mk.inj hfirst
      refine bind_congr_of_map (ih next) ?_
      rintro ⟨others, last⟩ ⟨flights, last'⟩ hrest
      obtain ⟨hrest, rfl⟩ := Prod.mk.inj hrest
      simp only [map_pure, List.map_cons, hfirst, hrest]

variable {χ : EventOutput α → γ}

theorem event_congr (hloads : q.loads = p.loads)
    (hflight : p.FliesAlike σ q budget ψ) (deposits : List (Deposit α))
    (houtput : ∀ flights others, others.map ψ = flights.map ψ →
      χ (q.outputOf deposits others) = χ (p.outputOf deposits flights))
    (source : σ) :
    (fun given => (χ given.1, given.2)) <$> q.event budget deposits source =
      (fun given => (χ given.1, given.2)) <$>
        p.event budget deposits source := by
  rw [event_eq, event_eq, hloads]
  simp only [map_bind]
  refine bind_congr_of_map (flyLoads_congr hflight _ source) ?_
  rintro ⟨others, last⟩ ⟨flights, last'⟩ h
  obtain ⟨h, rfl⟩ := Prod.mk.inj h
  simp only [map_pure, houtput flights others h]

end Congruence

/-! ## Recording -/

section Recording

variable (p : Propagation α) (budget : Nat) (asked : Bool) (step : Option α)

theorem propagate_unrecorded (t : Transport α) (carrier : Carrier)
    (position : Vec3 α) (start : α) (recorder recorder' : Option (Recorder α))
    (source : σ) :
    (fun flown => (flown.1, flown.2.2)) <$>
        (t.propagate budget carrier position start recorder source).result =
      (fun flown => (flown.1, flown.2.2)) <$>
        (t.propagate budget carrier position start recorder'
          source).result := by
  rw [(Transport.propagate_gives t budget carrier position start recorder
      source).result_eq,
    (Transport.propagate_gives t budget carrier position start recorder'
      source).result_eq]
  simp only [map_bind]
  exact bind_congr fun efield => bind_congr fun f => rfl

theorem propagate_withRecording (t : Transport α) (carrier : Carrier)
    (position : Vec3 α) (start : α) (recorder : Option (Recorder α))
    (source : σ) :
    (t.withRecording asked step).propagate budget carrier position start
        recorder source =
      t.propagate budget carrier position start recorder source :=
  Transport.propagate_congr (u := t.withRecording asked step) (t := t) rfl
    (fun _ _ => rfl) (fun _ => rfl) (fun _ => rfl) (fun _ => rfl) budget
    recorder source

theorem event_withRecording (deposits : List (Deposit α)) (source : σ) :
    (fun given => ((given.1.charges, given.1.summary), given.2)) <$>
        (p.withRecording asked step).event budget deposits source =
      (fun given => ((given.1.charges, given.1.summary), given.2)) <$>
        p.event budget deposits source := by
  refine event_congr (p := p) (q := p.withRecording asked step)
    (ψ := GroupFlight.unrecorded)
    (χ := fun output => (output.charges, output.summary)) rfl ?_ deposits ?_
    source
  · intro d index group source
    rw [transport_withRecording, propagate_withRecording]
    have hflown := congrArg
      (Functor.map fun ended =>
        ((⟨d, index, group, ended.1, none⟩ : GroupFlight α), ended.2))
      (propagate_unrecorded budget p.transport d.carrier d.localPosition
        d.localTime (p.withRecording asked step).recorder? p.recorder? source)
    rw [Functor.map_map, Functor.map_map] at hflown
    exact hflown
  · intro flights others h
    have hcharges : others.map p.record = flights.map p.record :=
      map_congr_of_map h p.record
    refine Prod.ext (congrArg List.toArray hcharges) ?_
    exact summary_outputOf rfl rfl deposits
      (map_congr_of_map h GroupFlight.tally)

end Recording

/-! ## Multiplication -/

section Multiplication

variable (p : Propagation α) (budget : Nat) (name : String)
variable (ionization : Ionization α)

omit [WordSource σ] in
theorem ungained_outputOf (deposits : List (Deposit α))
    {flights others : List (GroupFlight α)}
    (h : others.map GroupFlight.ungained =
      flights.map GroupFlight.ungained) :
    ((p.withMultiplication name ionization).outputOf deposits others).ungained =
      (p.outputOf deposits flights).ungained := by
  have hcharges : ((p.withMultiplication name ionization).outputOf deposits
        others).charges.map PropagatedCharge.ungained =
      (p.outputOf deposits flights).charges.map PropagatedCharge.ungained := by
    simp only [outputOf, List.map_toArray, List.map_map]
    exact congrArg List.toArray
      (map_congr_of_map h fun f => (p.record f).ungained)
  have htrajectory (flights : List (GroupFlight α)) :
      flights.filterMap GroupFlight.trajectory? =
        (flights.map GroupFlight.ungained).filterMap
          GroupFlight.trajectory? := by
    rw [List.filterMap_map]
    rfl
  have htrajectories : ((p.withMultiplication name ionization).outputOf
        deposits others).trajectories =
      (p.outputOf deposits flights).trajectories := by
    simp only [outputOf]
    rw [htrajectory others, h, ← htrajectory]
    rfl
  have hsummary := summary_outputOf (p := p)
    (q := p.withMultiplication name ionization) rfl rfl deposits
    (map_congr_of_map h GroupFlight.tally)
  unfold EventOutput.ungained
  rw [hcharges, htrajectories, hsummary]

theorem event_withMultiplication (deposits : List (Deposit α)) (source : σ) :
    (fun given => (given.1.ungained, given.2)) <$>
        (p.withMultiplication name ionization).event budget deposits source =
      (fun given => (given.1.ungained, given.2)) <$>
        p.event budget deposits source := by
  refine event_congr (p := p) (q := p.withMultiplication name ionization)
    (ψ := GroupFlight.ungained) (χ := EventOutput.ungained) rfl ?_ deposits ?_
    source
  · intro d index group source
    rw [transport_withMultiplication]
    have hflown := congrArg
      (Functor.map fun ended =>
        ((⟨d, index, group, ended.1, ended.2.1⟩ : GroupFlight α), ended.2.2))
      (p.transport.propagate_ungained name ionization d.carrier d.localTime
        budget d.localPosition p.recorder? source)
    rw [Functor.map_map, Functor.map_map] at hflown
    exact hflown
  · intro flights others h
    exact p.ungained_outputOf name ionization deposits h

end Multiplication

/-! ## Accepted configurations -/

section Accepted

variable {config : Config α} {field : Field α} {sensor : Sensor α}
variable {p q : Propagation α}

omit [WordSource σ]

theorem withRecording_of_setUp {asked : Bool} {step : Option α}
    (hp : (setUp config field sensor).result = .ok p)
    (hq : (setUp (config.withRecording asked step) field sensor).result =
      .ok q) : q = p.withRecording asked step := by
  obtain ⟨hmodels, hp⟩ := of_setUp hp
  obtain ⟨hmodels', hq⟩ := of_setUp hq
  have hsame : q.models = p.models :=
    hmodels'.unique ⟨hmodels.mobility, hmodels.recombination, hmodels.trapping,
      hmodels.detrapping, hmodels.ionization⟩
  rw [hp, hq, hsame]
  rfl

theorem withMultiplication_of_setUp {name : String} {threshold : α}
    (hp : (setUp config field sensor).result = .ok p)
    (hq : (setUp (config.withMultiplication name threshold) field
      sensor).result = .ok q) :
    q = p.withMultiplication name q.models.ionization := by
  obtain ⟨hmodels, hp⟩ := of_setUp hp
  obtain ⟨hmodels', hq⟩ := of_setUp hq
  have hthreshold : q.models.ionization.threshold = threshold :=
    Ionization.threshold_of_select hmodels'.ionization
  have hsame : q.models = p.models.withIonization q.models.ionization :=
    hmodels'.unique ⟨hmodels.mobility, hmodels.recombination, hmodels.trapping,
      hmodels.detrapping, hmodels'.ionization⟩
  subst hthreshold
  calc
    q = ⟨config.withMultiplication name q.models.ionization.threshold,
        q.models, field, sensor⟩ := hq
    _ = ⟨config.withMultiplication name q.models.ionization.threshold,
        p.models.withIonization q.models.ionization, field, sensor⟩ := by
      rw [← hsame]
    _ = p.withMultiplication name q.models.ionization := by
      rw [hp]
      rfl

end Accepted

/-- What watches a propagation has no part in it: a flight ends the same with
any recorder and with none, and an event gives the same charges, summary and
random numbers whether its trajectories are asked for, however often they are
sampled and whatever the totals were.  Another model of multiplication or
another threshold changes only the gain of a flight and the charges of the
groups of an event.  These are the propagations that are set up with such a
configuration. -/
theorem observers_have_no_part (t : Transport α) (p : Propagation α)
    (budget : Nat) :
    (∀ carrier position start recorder (source : σ) threshold threshold',
      (fun flown => (flown.1, flown.2.2)) <$>
          ((t.propagate budget carrier position start (some recorder)
            source).runFrom threshold).1 =
        (fun flown => (flown.1, flown.2.2)) <$>
          ((t.propagate budget carrier position start none source).runFrom
            threshold').1) ∧
    (∀ asked step deposits (source : σ) totals totals' threshold threshold',
      (fun given => (given.1.charges, given.1.summary, given.2.1)) <$>
          (((p.withRecording asked step).runEvent budget deposits source
            totals).runFrom threshold).1 =
        (fun given => (given.1.charges, given.1.summary, given.2.1)) <$>
          ((p.runEvent budget deposits source totals').runFrom
            threshold').1) ∧
    (∀ name ionization carrier position start recorder (source : σ) threshold
        threshold',
      (fun flown => (flown.1.ungained, flown.2)) <$>
          (((t.withMultiplication name ionization).propagate budget carrier
            position start recorder source).runFrom threshold).1 =
        (fun flown => (flown.1.ungained, flown.2)) <$>
          ((t.propagate budget carrier position start recorder source).runFrom
            threshold').1) ∧
    (∀ name ionization deposits (source : σ) totals threshold threshold',
      (fun given => (given.1.ungained, given.2)) <$>
          (((p.withMultiplication name ionization).runEvent budget deposits
            source totals).runFrom threshold).1 =
        (fun given => (given.1.ungained, given.2)) <$>
          ((p.runEvent budget deposits source totals).runFrom
            threshold').1) ∧
    (∀ (config : Config α) field sensor q,
      (setUp config field sensor).result = .ok q →
      (∀ asked step q',
        (setUp (config.withRecording asked step) field sensor).result =
          .ok q' → q' = q.withRecording asked step) ∧
      ∀ name threshold q',
        (setUp (config.withMultiplication name threshold) field
          sensor).result = .ok q' →
        q' = q.withMultiplication name q'.models.ionization) := by
  have hpropagate (t : Transport α) (carrier : Carrier) (position : Vec3 α)
      (start : α) (recorder : Option (Recorder α)) (source : σ)
      (threshold : Option Level) :
      ((t.propagate budget carrier position start recorder source).runFrom
        threshold).1 =
        (t.propagate budget carrier position start recorder source).result :=
    (Transport.propagate_gives t budget carrier position start recorder
      source).result.runFrom threshold
  refine ⟨?_, ?_, ?_, ?_, ?_⟩
  · intro carrier position start recorder source threshold threshold'
    rw [hpropagate, hpropagate]
    exact propagate_unrecorded budget t carrier position start _ none source
  · intro asked step deposits source totals totals' threshold threshold'
    rw [runEvent_eq_event, runEvent_eq_event]
    simp only [map_bind, map_pure]
    refine bind_congr_of_map
      (p.event_withRecording budget asked step deposits source) ?_
    rintro ⟨output, last⟩ ⟨output', last'⟩ h
    simp only [Prod.mk.injEq] at h
    obtain ⟨⟨hcharges, hsummary⟩, rfl⟩ := h
    rw [hcharges, hsummary]
  · intro name ionization carrier position start recorder source threshold
      threshold'
    rw [hpropagate, hpropagate]
    exact t.propagate_ungained name ionization carrier start budget position
      recorder source
  · intro name ionization deposits source totals threshold threshold'
    rw [runEvent_eq_event, runEvent_eq_event]
    simp only [map_bind, map_pure]
    refine bind_congr_of_map
      (p.event_withMultiplication budget name ionization deposits source) ?_
    rintro ⟨output, last⟩ ⟨output', last'⟩ h
    obtain ⟨houtput, rfl⟩ := Prod.mk.inj h
    have hsummary : output.ungained.summary = output'.ungained.summary := by
      rw [houtput]
    change output.summary = output'.summary at hsummary
    rw [houtput, hsummary]
  · intro config field sensor q hq
    exact ⟨fun asked step q' hq' => withRecording_of_setUp hq hq',
      fun name threshold q' hq' => withMultiplication_of_setUp hq hq'⟩

theorem observers_have_no_part_standard :
    ∃ p q r : Propagation Double,
      (setUp .standard Transport.thinLayer.field
        Transport.thinLayer.sensor).result = .ok p ∧
      (setUp (Config.standard.withRecording true (some 0.25))
        Transport.thinLayer.field Transport.thinLayer.sensor).result = .ok q ∧
      (setUp (Config.standard.withMultiplication "massey" 0.5)
        Transport.thinLayer.field Transport.thinLayer.sensor).result = .ok r ∧
      q = p.withRecording true (some 0.25) ∧
      r = p.withMultiplication "massey" r.models.ionization := by
  obtain ⟨p, hp⟩ := exists_of_isOk (x := (setUp Config.standard
    Transport.thinLayer.field Transport.thinLayer.sensor).result) (by
      decide +kernel)
  obtain ⟨q, hq⟩ := exists_of_isOk (x := (setUp
    (Config.standard.withRecording true (some 0.25))
    Transport.thinLayer.field Transport.thinLayer.sensor).result) (by
      decide +kernel)
  obtain ⟨r, hr⟩ := exists_of_isOk (x := (setUp
    (Config.standard.withMultiplication "massey" 0.5)
    Transport.thinLayer.field Transport.thinLayer.sensor).result) (by
      decide +kernel)
  obtain ⟨-, -, -, -, haccepted⟩ := observers_have_no_part (σ := CyclicWords)
    Transport.thinLayer p 1
  obtain ⟨hrecording, hmultiplication⟩ := haccepted .standard
    Transport.thinLayer.field Transport.thinLayer.sensor p hp
  exact ⟨p, q, r, hp, hq, hr, hrecording true (some 0.25) q hq,
    hmultiplication "massey" 0.5 r hr⟩

end Propagation

end CarrierTransport
