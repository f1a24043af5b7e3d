import CarrierTransport.Proofs.Scalar.Real
import CarrierTransport.Proofs.Run.Conservation
import CarrierTransport.Proofs.Run.Output

/-!
# Composition of events

An event may be cut into two anywhere in its deposits, and deposits that are
skipped may be left out: the random numbers pass from the flights of one deposit
to those of the next, and nothing else does.
-/

namespace CarrierTransport

variable {α σ : Type}

/-! ## Labels -/

def PropagatedCharge.relabel (label : Nat → Nat) (c : PropagatedCharge α) :
    PropagatedCharge α :=
  { c with deposit := label c.deposit }

def GroupFlight.relabel (label : Nat → Nat) (f : GroupFlight α) :
    GroupFlight α :=
  { f with index := label f.index }

namespace GroupFlight

@[simp] theorem relabel_group (label : Nat → Nat) (f : GroupFlight α) :
    (f.relabel label).group = f.group := rfl

@[simp] theorem relabel_outcome (label : Nat → Nat) (f : GroupFlight α) :
    (f.relabel label).outcome = f.outcome := rfl

@[simp] theorem trajectory?_relabel (label : Nat → Nat)
    (f : GroupFlight α) : (f.relabel label).trajectory? = f.trajectory? := rfl

end GroupFlight

def relabelLoad (label : Nat → Nat) (load : Deposit α × Nat × UInt32) :
    Deposit α × Nat × UInt32 :=
  (load.1, label load.2.1, load.2.2)

@[simp] theorem chargeIn_relabel (label : Nat → Nat) (state : CarrierState)
    (flights : List (GroupFlight α)) :
    chargeIn state (flights.map (·.relabel label)) =
      chargeIn state flights := by
  unfold chargeIn
  rw [List.filter_map, List.map_map]
  rfl

variable [Scalar α]

@[simp] theorem timeFrom_relabel (label : Nat → Nat) (time : α)
    (flights : List (GroupFlight α)) :
    timeFrom time (flights.map (·.relabel label)) = timeFrom time flights :=
  List.foldl_map

theorem timeFrom_eq_add (time : ℝ) (flights : List (GroupFlight ℝ)) :
    timeFrom time flights = time + timeFrom 0.0 flights := by
  rw [decimal_zero]
  induction flights generalizing time with
  | nil => exact (add_zero time).symm
  | cons f flights ih =>
      change timeFrom (time + f.group.toNat * f.outcome.time) flights =
        time + timeFrom (0 + f.group.toNat * f.outcome.time) flights
      rw [ih, ih (0 + _), zero_add, add_assoc]

/-! ## Outputs put together -/

def EventSummary.join (a b : EventSummary α) : EventSummary α where
  propagatedCharge := a.propagatedCharge + b.propagatedCharge
  recombinedCharge := a.recombinedCharge + b.recombinedCharge
  trappedCharge := a.trappedCharge + b.trappedCharge
  chargeGroups := a.chargeGroups + b.chargeGroups
  integrationSteps := a.integrationSteps + b.integrationSteps
  weightedTime := a.weightedTime + b.weightedTime
  deposits := a.deposits + b.deposits
  skippedDeposits := a.skippedDeposits + b.skippedDeposits
  coarsenedDeposits := a.coarsenedDeposits + b.coarsenedDeposits

namespace EventOutput

/-- An output followed by that of deposits whose places are higher by `n`. -/
def join (first : EventOutput α) (n : Nat) (second : EventOutput α) :
    EventOutput α where
  charges := first.charges ++ second.charges.map (·.relabel (n + ·))
  trajectories := first.trajectories.bind fun trajectories =>
    second.trajectories.map (trajectories ++ ·)
  summary := first.summary.join second.summary

def withTime (o : EventOutput α) (time : α) : EventOutput α :=
  { o with summary := { o.summary with weightedTime := time } }

/-- An output without the sum of its times, in which rounding depends on the
order of the additions. -/
def untimed (o : EventOutput α) : EventOutput α := o.withTime 0.0

/-- An output without the places of deposits and the number of those that were
skipped. -/
def unlabelled (o : EventOutput α) : EventOutput α where
  charges := o.charges.map (·.relabel fun _ => 0)
  trajectories := o.trajectories
  summary := { o.summary with skippedDeposits := 0 }

end EventOutput

namespace Propagation

section Labels

variable (p : Propagation α)

@[simp] theorem record_relabel (label : Nat → Nat) (f : GroupFlight α) :
    p.record (f.relabel label) = (p.record f).relabel label := rfl

theorem outputOf_append (deposits more : List (Deposit α))
    (flights others : List (GroupFlight α)) (n : Nat) :
    p.outputOf (deposits ++ more)
        (flights ++ others.map (·.relabel (n + ·))) =
      ((p.outputOf deposits flights).join n (p.outputOf more others)).withTime
        (timeFrom (timeFrom 0.0 flights) others) := by
  unfold outputOf EventOutput.join EventOutput.withTime EventSummary.join
  congr 1
  · simp [Function.comp_def]
  · cases p.config.outputTrajectories <;>
      simp [List.filterMap_map, Function.comp_def]
  · simp [chargeIn_append, timeFrom_append, Function.comp_def]

theorem outputOf_unlabelled (deposits : List (Deposit α))
    (flights : List (GroupFlight α)) :
    (p.outputOf deposits flights).unlabelled =
      (p.outputOf (deposits.filter p.accepts)
        (flights.map (·.relabel fun _ => 0))).unlabelled := by
  unfold outputOf EventOutput.unlabelled
  congr 1
  · simp [Function.comp_def, PropagatedCharge.relabel]
  · simp [List.filterMap_map, Function.comp_def]
  · simp [List.countP_filter, Function.comp_def, Bool.and_right_comm]

end Labels

variable [WordSource σ] (p : Propagation α) (budget : Nat)

theorem flyLoads_relabel (label : Nat → Nat)
    (loads : List (Deposit α × Nat × UInt32)) (source : σ) :
    p.flyLoads budget (loads.map (relabelLoad label)) source = (do
      let (flights, source) ← p.flyLoads budget loads source
      return (flights.map (·.relabel label), source)) := by
  induction loads generalizing source with
  | nil => rfl
  | cons load loads ih =>
      obtain ⟨d, index, group⟩ := load
      simp only [List.map_cons, relabelLoad, flyLoads, ih]
      simp only [bind_assoc, pure_bind, List.map_cons]
      rfl

/-! ## Deposits cut in two and left out -/

theorem loads_relabel (label : Nat → Nat) (numbered : Deposit α × Nat) :
    (p.loads numbered).map (relabelLoad label) =
      p.loads (numbered.1, label numbered.2) := by
  unfold loads
  cases p.accepts numbered.1 <;> simp [relabelLoad, Function.comp_def]

theorem flatMap_loads_relabel (label : Nat → Nat)
    (numbered : List (Deposit α × Nat)) :
    (numbered.flatMap p.loads).map (relabelLoad label) =
      numbered.flatMap fun numbered =>
        p.loads (numbered.1, label numbered.2) := by
  rw [List.map_flatMap]
  simp only [loads_relabel]

theorem flatMap_loads_filter (deposits : List (Deposit α)) :
    (deposits.filter p.accepts).flatMap (fun d => p.loads (d, 0)) =
      deposits.flatMap fun d => p.loads (d, 0) := by
  induction deposits with
  | nil => rfl
  | cons d deposits ih =>
      rw [List.flatMap_cons, ← ih]
      cases haccepts : p.accepts d <;> simp [haccepts, loads]

theorem event_append (deposits more : List (Deposit α)) (source : σ) :
    p.event budget (deposits ++ more) source = (do
      let (flights, source) ←
        p.flyLoads budget (deposits.zipIdx.flatMap p.loads) source
      let (others, source) ←
        p.flyLoads budget (more.zipIdx.flatMap p.loads) source
      return (((p.outputOf deposits flights).join deposits.length
        (p.outputOf more others)).withTime
          (timeFrom (timeFrom 0.0 flights) others), source)) := by
  have hloads : (more.zipIdx (0 + deposits.length)).flatMap p.loads =
      (more.zipIdx.flatMap p.loads).map
        (relabelLoad (deposits.length + ·)) := by
    rw [flatMap_loads_relabel, List.zipIdx_eq_map_add, List.flatMap_map,
      Nat.zero_add]
  rw [event_eq, List.zipIdx_append, List.flatMap_append, flyLoads_append,
    hloads]
  simp only [flyLoads_relabel, bind_assoc, pure_bind]
  refine bind_congr fun flown => bind_congr fun others => ?_
  rw [outputOf_append]

/-- But for labels, an event depends on the deposits that are propagated and on
nothing else. -/
theorem event_unlabelled (deposits : List (Deposit α)) (source : σ) :
    (do
      let (output, source) ← p.event budget deposits source
      return (output.unlabelled, source)) = (do
      let (flights, source) ← p.flyLoads budget
        ((deposits.filter p.accepts).flatMap fun d => p.loads (d, 0)) source
      return ((p.outputOf (deposits.filter p.accepts) flights).unlabelled,
        source)) := by
  have hloads : (deposits.filter p.accepts).flatMap (fun d => p.loads (d, 0)) =
      (deposits.zipIdx.flatMap p.loads).map (relabelLoad fun _ => 0) := by
    rw [flatMap_loads_filter, flatMap_loads_relabel,
      ← List.flatMap_map Prod.fst fun d => p.loads (d, 0), List.zipIdx_map_fst]
  rw [hloads, flyLoads_relabel, event_eq]
  simp only [bind_assoc, pure_bind]
  refine bind_congr fun flown => ?_
  rw [outputOf_unlabelled]

/-! ## What each charge says -/

variable {p budget}

omit [WordSource σ] in
theorem pairwise_loads (p : Propagation α) (deposits : List (Deposit α)) :
    (deposits.zipIdx.flatMap p.loads).Pairwise
      fun a b => a.2.1 ≤ b.2.1 := by
  have hplaces : deposits.zipIdx.Pairwise fun a b => a.2 < b.2 := by
    rw [← List.pairwise_map, List.zipIdx_map_snd]
    exact List.pairwise_lt_range'
  refine List.pairwise_flatMap.mpr ⟨?_, hplaces.imp ?_⟩
  · intro numbered _
    refine List.pairwise_of_forall_mem_list ?_
    intro a ha b hb
    rw [p.index_of_mem_loads ha, p.index_of_mem_loads hb]
  · intro numbered later hlt a ha b hb
    rw [p.index_of_mem_loads ha, p.index_of_mem_loads hb]
    exact hlt.le

omit [WordSource σ] in
theorem accepts_of_mem_loads {numbered : Deposit α × Nat}
    {load : Deposit α × Nat × UInt32} (h : load ∈ p.loads numbered) :
    p.accepts numbered.1 = true ∧ load.1 = numbered.1 := by
  unfold loads at h
  split at h
  · rename_i haccepts
    obtain ⟨group, -, rfl⟩ := List.mem_map.mp h
    exact ⟨haccepts, rfl⟩
  · cases h

/-- The charge of a deposit says when the group of the deposit arrived, on both
clocks. -/
structure Arrives (p : Propagation α) (deposits : List (Deposit α))
    (c : PropagatedCharge α) (d : Deposit α) (o : Outcome α) : Prop where
  deposit : deposits[c.deposit]? = some d
  accepts : p.accepts d = true
  carrier : c.carrier = d.carrier
  localTime : c.localTime = d.localTime + o.time
  globalTime : c.globalTime = d.globalTime + o.time

theorem event_charges {deposits : List (Deposit α)} {source source' : σ}
    {output : EventOutput α}
    (h : p.event budget deposits source = .ok (output, source')) :
    output.charges.toList.Pairwise (fun a b => a.deposit ≤ b.deposit) ∧
      ∀ c ∈ output.charges, ∃ d o, p.Arrives deposits c d o ∧
        ∃ (before after : σ) (recorder : Option (Recorder α)),
          (p.transport.propagate budget d.carrier d.localPosition d.localTime
            p.recorder? before).result = .ok (o, recorder, after) := by
  rw [event_eq] at h
  obtain ⟨⟨flights, last⟩, hfly, h⟩ := bind_eq_ok.mp h
  cases h
  obtain ⟨hcarried, hloads⟩ := carried_of_flyLoads hfly
  constructor
  · have hpairwise := p.pairwise_loads deposits
    rw [← hloads, List.pairwise_map] at hpairwise
    exact List.pairwise_map.mpr hpairwise
  · intro c hc
    obtain ⟨f, hf, rfl⟩ : ∃ f ∈ flights, p.record f = c := by
      simpa [outputOf] using hc
    have hload : f.load ∈ deposits.zipIdx.flatMap p.loads := by
      rw [← hloads]
      exact List.mem_map_of_mem hf
    obtain ⟨numbered, hnumbered, hload⟩ := List.mem_flatMap.mp hload
    obtain ⟨haccepts, hdeposit⟩ := accepts_of_mem_loads hload
    have hindex := p.index_of_mem_loads hload
    obtain ⟨before, after, hflown⟩ := hcarried.flown f hf
    refine ⟨f.deposit, f.outcome, ⟨?_, ?_, rfl, rfl, rfl⟩, before, after,
      f.recorder, hflown⟩
    · change deposits[f.load.2.1]? = some f.load.1
      rw [hdeposit, hindex]
      exact List.mk_mem_zipIdx_iff_getElem?.mp hnumbered
    · change p.accepts f.load.1 = true
      rw [hdeposit]
      exact haccepts

/-- The output of an event is that of its first deposits followed by that of the
others with the random numbers that the first have left; in exact arithmetic
this holds for the sum of the times too.  A deposit that is skipped draws
nothing and leaves no trace but its count and its place.  The charges come in
the order of their deposits, each with the carrier of its deposit and one
time of flight on both clocks. -/
theorem runEvent_composes :
    (∀ (p : Propagation α) (budget : Nat) (deposits : List (Deposit α))
        (source : σ) (totals : RunTotals) (threshold : Option Level),
      ((p.runEvent budget deposits source totals).runFrom threshold).1 = (do
        let (output, source) ← p.event budget deposits source
        return (output, source, totals.record output.summary))) ∧
    (∀ (p : Propagation α) (budget : Nat) (deposits more : List (Deposit α))
        (source : σ),
      (do
        let (output, source) ← p.event budget (deposits ++ more) source
        return (output.untimed, source)) = (do
        let (first, source) ← p.event budget deposits source
        let (second, source) ← p.event budget more source
        return ((first.join deposits.length second).untimed, source))) ∧
    (∀ (p : Propagation ℝ) (budget : Nat) (deposits more : List (Deposit ℝ))
        (source : σ),
      p.event budget (deposits ++ more) source = (do
        let (first, source) ← p.event budget deposits source
        let (second, source) ← p.event budget more source
        return (first.join deposits.length second, source))) ∧
    (∀ (p : Propagation α) (budget : Nat) (deposits others : List (Deposit α))
        (source : σ), deposits.filter p.accepts = others.filter p.accepts →
      (do
        let (output, source) ← p.event budget deposits source
        return (output.unlabelled, source)) = (do
        let (output, source) ← p.event budget others source
        return (output.unlabelled, source))) ∧
    (∀ (p : Propagation α) (budget : Nat) (deposits : List (Deposit α))
        (source source' : σ) (output : EventOutput α),
      p.event budget deposits source = .ok (output, source') →
      output.charges.toList.Pairwise (fun a b => a.deposit ≤ b.deposit) ∧
      ∀ c ∈ output.charges, ∃ d o, p.Arrives deposits c d o ∧
        ∃ (before after : σ) (recorder : Option (Recorder α)),
          (p.transport.propagate budget d.carrier d.localPosition d.localTime
            p.recorder? before).result = .ok (o, recorder, after)) := by
  refine ⟨?_, ?_, ?_, ?_, ?_⟩
  · intro p budget deposits source totals threshold
    exact p.runEvent_eq_event budget deposits source totals threshold
  · intro p budget deposits more source
    rw [event_append]
    simp only [event_eq, bind_assoc, pure_bind]
    rfl
  · intro p budget deposits more source
    rw [event_append]
    simp only [event_eq, bind_assoc, pure_bind]
    refine bind_congr fun flown => bind_congr fun others => ?_
    rw [timeFrom_eq_add]
    rfl
  · intro p budget deposits others source hfilter
    rw [event_unlabelled, event_unlabelled, hfilter]
  · intro p budget deposits source source' output hrun
    exact event_charges hrun

theorem runEvent_composes_threeDeposits :
    threeDeposits.filter thinPropagation.accepts =
      (threeDeposits.take 1).filter thinPropagation.accepts ∧
    ∃ output source',
      thinPropagation.event 2 threeDeposits Transport.middleWords =
        .ok (output, source') ∧
      output.charges.size = 2 ∧
      output.charges.toList.Pairwise (fun a b => a.deposit ≤ b.deposit) ∧
      (do
        let (output, source) ←
          thinPropagation.event 2 (threeDeposits.take 1) Transport.middleWords
        return (output.unlabelled, source)) =
        .ok (output.unlabelled, source') := by
  have hfilter : threeDeposits.filter thinPropagation.accepts =
      (threeDeposits.take 1).filter thinPropagation.accepts := by
    have haccepts : threeDeposits.map thinPropagation.accepts =
        [true, false, false] := by
      decide +kernel
    simp only [threeDeposits, List.map_cons, List.cons.injEq] at haccepts
    obtain ⟨hfirst, hcarrier, hlate, -⟩ := haccepts
    simp [threeDeposits, hfirst, hcarrier, hlate]
  refine ⟨hfilter, ?_⟩
  obtain ⟨-, -, -, hskipped, hcharges⟩ :=
    runEvent_composes (α := Double) (σ := CyclicWords)
  have hruns : (match thinPropagation.event 2 threeDeposits
        Transport.middleWords with
      | .ok (output, _) => output.charges.size
      | .error _ => 0) = 2 := by
    decide +kernel
  cases hrun : thinPropagation.event 2 threeDeposits Transport.middleWords with
  | error fault => simp [hrun] at hruns
  | ok given =>
      obtain ⟨output, source'⟩ := given
      rw [hrun] at hruns
      obtain ⟨hpairwise, -⟩ := hcharges _ _ _ _ _ _ hrun
      have hsame := hskipped thinPropagation 2 threeDeposits
        (threeDeposits.take 1) Transport.middleWords hfilter
      rw [hrun] at hsame
      exact ⟨output, source', rfl, hruns, hpairwise, hsame.symm⟩

end Propagation

end CarrierTransport
