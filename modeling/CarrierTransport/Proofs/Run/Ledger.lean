import CarrierTransport.Proofs.Flight.Containment
import CarrierTransport.Proofs.Run.Event

/-!
# The ledger of an event

The totals of an event are those of its deposits and of the flights of their
groups, and its charges and trajectories are the records of these flights in
their order.
-/

namespace CarrierTransport

variable {α σ : Type}

/-- The carriers of the groups that ended in a state, before any gain. -/
def chargeIn (state : CarrierState) (flights : List (GroupFlight α)) : Nat :=
  ((flights.filter (·.outcome.state = state)).map (·.group.toNat)).sum

theorem chargeIn_append (state : CarrierState)
    (flights more : List (GroupFlight α)) :
    chargeIn state (flights ++ more) =
      chargeIn state flights + chargeIn state more := by
  unfold chargeIn
  rw [List.filter_append, List.map_append, List.sum_append]

theorem chargeIn_singleton (state : CarrierState) (f : GroupFlight α) :
    chargeIn state [f] =
      if f.outcome.state = state then f.group.toNat else 0 := by
  unfold chargeIn
  by_cases h : f.outcome.state = state <;> simp [h]

/-- No group ends in two states. -/
theorem chargeIn_add_le {a b : CarrierState} (hne : a ≠ b)
    (flights : List (GroupFlight α)) :
    chargeIn a flights + chargeIn b flights ≤
      (flights.map (·.group.toNat)).sum := by
  induction flights with
  | nil => exact Nat.le_refl 0
  | cons f flights ih =>
      rw [List.map_cons, List.sum_cons, ← List.singleton_append,
        chargeIn_append, chargeIn_append, chargeIn_singleton,
        chargeIn_singleton]
      by_cases ha : f.outcome.state = a
      · have hb : f.outcome.state ≠ b := fun h => hne (ha.symm.trans h)
        rw [if_pos ha, if_neg hb]
        omega
      · rw [if_neg ha]
        split <;> omega

variable [Scalar α]

namespace Propagation

/-- What an output says of its entries. -/
structure Accounts (p : Propagation α) (entries : List (EventEntry α))
    (output : EventOutput α) : Prop where
  charges : output.charges.toList = (EventEntry.flights entries).map p.record
  trajectories : output.trajectories.map (·.toList) =
    if p.config.outputTrajectories then
      some ((EventEntry.flights entries).filterMap GroupFlight.trajectory?)
    else none
  propagatedCharge : output.summary.propagatedCharge =
    ((EventEntry.flights entries).map (·.group.toNat)).sum
  recombinedCharge : output.summary.recombinedCharge =
    chargeIn .recombined (EventEntry.flights entries)
  trappedCharge : output.summary.trappedCharge =
    chargeIn .trapped (EventEntry.flights entries)
  chargeGroups : output.summary.chargeGroups =
    (EventEntry.flights entries).length
  integrationSteps : output.summary.integrationSteps =
    ((EventEntry.flights entries).map (·.outcome.steps)).sum
  deposits : output.summary.deposits =
    (EventEntry.deposits entries).countP p.accepts
  skippedDeposits : output.summary.skippedDeposits =
    (EventEntry.deposits entries).countP (!p.accepts ·)
  coarsenedDeposits : output.summary.coarsenedDeposits =
    (EventEntry.deposits entries).countP fun d =>
      p.accepts d && (p.plan d).coarsened

theorem accounts_begin (p : Propagation α) (source : σ) :
    p.Accounts [] (p.begin source).output := by
  constructor
  case trajectories =>
    unfold begin
    cases p.config.outputTrajectories <;> rfl
  all_goals rfl

theorem Accounts.enter_deposit {p : Propagation α}
    {entries : List (EventEntry α)} {output : EventOutput α}
    (h : p.Accounts entries output) (d : Deposit α) :
    p.Accounts (entries ++ [.deposit d]) (p.enter output (.deposit d)) := by
  have hflights : EventEntry.flights (entries ++ [.deposit d]) =
      EventEntry.flights entries := by
    rw [EventEntry.flights_append]
    exact List.append_nil _
  have hdeposits : EventEntry.deposits (entries ++ [.deposit d]) =
      EventEntry.deposits entries ++ [d] :=
    EventEntry.deposits_append entries [.deposit d]
  unfold enter countDeposit
  constructor <;> simp only [hflights, hdeposits, List.countP_append,
    List.countP_singleton]
  case charges => exact h.charges
  case trajectories => exact h.trajectories
  case deposits =>
    rw [← h.deposits]
    cases p.accepts d <;> rfl
  case skippedDeposits =>
    rw [← h.skippedDeposits]
    cases p.accepts d <;> rfl
  case coarsenedDeposits =>
    rw [← h.coarsenedDeposits]
    cases p.accepts d <;> rfl
  case propagatedCharge =>
    rw [← h.propagatedCharge]
    cases p.accepts d <;> rfl
  case recombinedCharge =>
    rw [← h.recombinedCharge]
    cases p.accepts d <;> rfl
  case trappedCharge =>
    rw [← h.trappedCharge]
    cases p.accepts d <;> rfl
  case chargeGroups =>
    rw [← h.chargeGroups]
    cases p.accepts d <;> rfl
  case integrationSteps =>
    rw [← h.integrationSteps]
    cases p.accepts d <;> rfl

theorem Accounts.enter_flight {p : Propagation α}
    {entries : List (EventEntry α)} {output : EventOutput α}
    (h : p.Accounts entries output) (f : GroupFlight α) :
    p.Accounts (entries ++ [.flight f]) (p.enter output (.flight f)) := by
  have hflights : EventEntry.flights (entries ++ [.flight f]) =
      EventEntry.flights entries ++ [f] :=
    EventEntry.flights_append entries [.flight f]
  have hdeposits : EventEntry.deposits (entries ++ [.flight f]) =
      EventEntry.deposits entries := by
    rw [EventEntry.deposits_append]
    exact List.append_nil _
  unfold enter countGroup
  constructor <;> simp only [hflights, hdeposits, List.map_append,
    List.map_singleton, List.sum_append, List.sum_singleton,
    List.length_append, List.length_singleton, chargeIn_append,
    chargeIn_singleton]
  case charges => rw [Array.toList_push, h.charges]
  case trajectories =>
    have hbefore := h.trajectories
    cases hkept : output.trajectories with
    | none =>
        rw [hkept] at hbefore
        cases hout : p.config.outputTrajectories <;> simp_all
    | some trajectories =>
        rw [hkept] at hbefore
        cases hout : p.config.outputTrajectories with
        | false => simp [hout] at hbefore
        | true =>
            simp only [hout, if_true, Option.map_some,
              Option.some.injEq] at hbefore ⊢
            rw [Array.toList_append, hbefore, List.filterMap_append]
            cases htrajectory : f.trajectory? <;> simp [htrajectory]
  case deposits => exact h.deposits
  case skippedDeposits => exact h.skippedDeposits
  case coarsenedDeposits => exact h.coarsenedDeposits
  case propagatedCharge => rw [h.propagatedCharge]
  case recombinedCharge => rw [h.recombinedCharge]
  case trappedCharge => rw [h.trappedCharge]
  case chargeGroups => rw [h.chargeGroups]
  case integrationSteps => rw [h.integrationSteps]

theorem Accounts.enter {p : Propagation α} {entries : List (EventEntry α)}
    {output : EventOutput α} (h : p.Accounts entries output)
    (entry : EventEntry α) :
    p.Accounts (entries ++ [entry]) (p.enter output entry) := by
  cases entry with
  | deposit d => exact h.enter_deposit d
  | flight f => exact h.enter_flight f

theorem Accounts.foldl_enter {p : Propagation α}
    {entries more : List (EventEntry α)} {output : EventOutput α}
    (h : p.Accounts entries output) :
    p.Accounts (entries ++ more) (more.foldl p.enter output) := by
  induction more generalizing entries output with
  | nil => simpa using h
  | cons entry more ih =>
      rw [List.append_cons]
      exact ih (h.enter entry)

/-! ## What is carried of the deposits -/

omit [Scalar α] in
theorem sum_groups (p : Propagation α) (d : Deposit α) :
    ((p.groups d).map UInt32.toNat).sum = d.charge.toNat :=
  ChargeGroups.sum_toList _

def groupCount (p : Propagation α) (d : Deposit α) : Nat :=
  (ChargeGroups.ofPlan d.charge (p.plan d)).length.toNat

omit [Scalar α] in
theorem length_groups (p : Propagation α) (d : Deposit α) :
    (p.groups d).length = p.groupCount d :=
  ChargeGroups.length_toList _ (ChargeGroups.ofPlan_size_ne_zero _ _)

theorem sum_loads (p : Propagation α) (size : UInt32 → Nat)
    (numbered : List (Deposit α × Nat)) :
    ((numbered.flatMap p.loads).map fun load => size load.2.2).sum =
      (((numbered.map Prod.fst).filter p.accepts).map fun d =>
        ((p.groups d).map size).sum).sum := by
  induction numbered with
  | nil => rfl
  | cons numbered rest ih =>
      rw [List.flatMap_cons, List.map_append, List.sum_append, ih,
        List.map_cons]
      unfold loads
      cases haccepts : p.accepts numbered.1 with
      | false => simp [haccepts]
      | true =>
          rw [if_pos rfl, List.filter_cons_of_pos haccepts, List.map_cons,
            List.sum_cons, List.map_map]
          rfl

theorem sum_flights {p : Propagation α} {flights : List (GroupFlight α)}
    {deposits : List (Deposit α)}
    (hloads : flights.map GroupFlight.load = deposits.zipIdx.flatMap p.loads)
    (size : UInt32 → Nat) :
    (flights.map fun f => size f.group).sum =
      ((deposits.filter p.accepts).map fun d =>
        ((p.groups d).map size).sum).sum := by
  have hmap := congrArg (List.map fun load => size load.2.2) hloads
  rw [List.map_map] at hmap
  have hsum := p.sum_loads size deposits.zipIdx
  rw [← hmap, List.zipIdx_map_fst] at hsum
  exact hsum

variable [WordSource σ] {p : Propagation α} {budget : Nat}
variable {source source' : σ}

theorem Carried.recorder {flights : List (GroupFlight α)}
    (h : p.Carried budget source flights source') :
    ∀ f ∈ flights, f.recorder.isSome = p.config.outputTrajectories := by
  induction h with
  | done => simp
  | flight flown _ ih =>
      intro f hf
      obtain rfl | hf := List.mem_cons.mp hf
      · obtain ⟨_, reports, _, _, _, _, _, _, hrecorder, _⟩ :=
          Transport.propagate_result_eq_ok_iff.mp flown
        rw [hrecorder, Option.isSome_map, recorder?]
        cases p.config.outputTrajectories <;> rfl
      · exact ih f hf

/-- When trajectories are asked for, every flight has one. -/
theorem Carried.trajectories {flights : List (GroupFlight α)}
    (h : p.Carried budget source flights source')
    (hasked : p.config.outputTrajectories = true) :
    (flights.filterMap GroupFlight.trajectory?).map some =
        flights.map GroupFlight.trajectory? ∧
      (flights.filterMap GroupFlight.trajectory?).map (·.charge.toNat) =
        flights.map (·.group.toNat) := by
  have hrecorded (f : GroupFlight α) (hf : f ∈ flights) :
      ∃ t, f.trajectory? = some t ∧ t.charge = f.group := by
    obtain ⟨recorder, hrecorder⟩ :=
      Option.isSome_iff_exists.mp ((h.recorder f hf).trans hasked)
    rw [GroupFlight.trajectory?, hrecorder]
    exact ⟨_, rfl, rfl⟩
  clear h
  induction flights with
  | nil => exact ⟨rfl, rfl⟩
  | cons f flights ih =>
      obtain ⟨t, htrajectory, hcharge⟩ := hrecorded f List.mem_cons_self
      obtain ⟨hsome, hcharges⟩ :=
        ih fun g hg => hrecorded g (List.mem_cons_of_mem f hg)
      rw [List.filterMap_cons_some htrajectory, List.map_cons, List.map_cons,
        List.map_cons, List.map_cons, hsome, hcharges, htrajectory, hcharge]
      exact ⟨rfl, rfl⟩

/-- The totals, charges and trajectories of an event. -/
structure Ledger (p : Propagation α) (deposits : List (Deposit α))
    (flights : List (GroupFlight α)) (output : EventOutput α) : Prop where
  charges : output.charges.toList = flights.map p.record
  accepted : output.summary.deposits = (deposits.filter p.accepts).length
  everyDeposit :
    output.summary.deposits + output.summary.skippedDeposits = deposits.length
  propagatedCharge : output.summary.propagatedCharge =
    ((deposits.filter p.accepts).map (·.charge.toNat)).sum
  chargesSize : output.summary.chargeGroups = output.charges.size
  chargeGroups : output.summary.chargeGroups =
    ((deposits.filter p.accepts).map p.groupCount).sum
  recombinedCharge :
    output.summary.recombinedCharge = chargeIn .recombined flights
  trappedCharge : output.summary.trappedCharge = chargeIn .trapped flights
  lost : output.summary.recombinedCharge + output.summary.trappedCharge ≤
    output.summary.propagatedCharge
  integrationSteps :
    output.summary.integrationSteps = (flights.map (·.outcome.steps)).sum
  coarsenedDeposits : output.summary.coarsenedDeposits =
    ((deposits.filter p.accepts).filter fun d =>
      0 < p.config.maxChargeGroups.toNat ∧ p.config.maxChargeGroups.toNat <
        d.charge.toNat ⌈/⌉ max p.config.chargePerStep.toNat 1).length
  noTrajectories :
    p.config.outputTrajectories = false → output.trajectories = none
  trajectories : p.config.outputTrajectories = true →
    ∃ trajectories, output.trajectories = some trajectories ∧
      trajectories.toList.map some = flights.map GroupFlight.trajectory? ∧
      trajectories.size = output.charges.size ∧
      (trajectories.toList.map (·.charge.toNat)).sum =
        output.summary.propagatedCharge

theorem Accounts.ledger {entries : List (EventEntry α)}
    {output : EventOutput α} {deposits : List (Deposit α)}
    (h : p.Accounts entries output)
    (hcarried : p.Carried budget source (EventEntry.flights entries) source')
    (hloads : (EventEntry.flights entries).map GroupFlight.load =
      deposits.zipIdx.flatMap p.loads)
    (hdeposits : EventEntry.deposits entries = deposits) :
    p.Ledger deposits (EventEntry.flights entries) output := by
  have hsum := sum_flights hloads
  have hpropagated : output.summary.propagatedCharge =
      ((deposits.filter p.accepts).map (·.charge.toNat)).sum := by
    rw [h.propagatedCharge, hsum UInt32.toNat]
    simp only [sum_groups]
  have hgroups : output.summary.chargeGroups =
      ((deposits.filter p.accepts).map p.groupCount).sum := by
    have hone := hsum fun _ => 1
    simp only [List.map_const', List.sum_replicate_nat, Nat.mul_one,
      length_groups] at hone
    rw [h.chargeGroups, hone]
  have hsize : output.charges.size = (EventEntry.flights entries).length := by
    rw [← Array.length_toList, h.charges, List.length_map]
  have hkept := h.trajectories
  constructor
  case charges => exact h.charges
  case accepted => rw [h.deposits, hdeposits, List.countP_eq_length_filter]
  case everyDeposit =>
    rw [h.deposits, h.skippedDeposits, hdeposits,
      List.length_eq_countP_add_countP p.accepts]
    simp
  case propagatedCharge => exact hpropagated
  case chargesSize => rw [h.chargeGroups, hsize]
  case chargeGroups => exact hgroups
  case recombinedCharge => exact h.recombinedCharge
  case trappedCharge => exact h.trappedCharge
  case lost =>
    rw [h.recombinedCharge, h.trappedCharge, h.propagatedCharge]
    exact chargeIn_add_le (by decide) _
  case integrationSteps => exact h.integrationSteps
  case coarsenedDeposits =>
    rw [h.coarsenedDeposits, hdeposits, List.filter_filter,
      ← List.countP_eq_length_filter]
    refine List.countP_congr fun d _ => ?_
    rw [Bool.and_comm]
    simp only [Bool.and_eq_true, decide_eq_true_eq]
    rw [plan, GroupPlan.coarsened_ofCharge]
  case noTrajectories =>
    intro hnone
    rw [hnone] at hkept
    exact Option.map_eq_none_iff.mp hkept
  case trajectories =>
    intro hasked
    rw [if_pos hasked] at hkept
    obtain ⟨trajectories, houtput, hlist⟩ := Option.map_eq_some_iff.mp hkept
    obtain ⟨hsome, hcharges⟩ := hcarried.trajectories hasked
    rw [← hlist] at hsome hcharges
    have hlength := congrArg List.length hsome
    rw [List.length_map, List.length_map, Array.length_toList] at hlength
    exact ⟨trajectories, houtput, hsome, hlength.trans hsize.symm,
      by rw [hcharges, h.propagatedCharge]⟩

/-- An event that succeeds has entered its deposits and their flights. -/
theorem runEvent_accounts {deposits : List (Deposit α)}
    {totals totals' : RunTotals} {threshold : Option Level}
    {output : EventOutput α} {journal : Journal α}
    (h : (p.runEvent budget deposits source totals).runFrom threshold =
      (.ok (output, source', totals'), journal)) :
    ∃ entries, p.Carried budget source (EventEntry.flights entries) source' ∧
      (EventEntry.flights entries).map GroupFlight.load =
        deposits.zipIdx.flatMap p.loads ∧
      EventEntry.deposits entries = deposits ∧ p.Accounts entries output := by
  have hresult :=
    (p.runEvent_gives budget deposits source totals).result_of_run h
  obtain ⟨entries, hcarried, hloads, hdeposits, houtput, -⟩ :=
    runEvent_ok hresult
  refine ⟨entries, hcarried, hloads, hdeposits, ?_⟩
  rw [houtput]
  exact (p.accounts_begin source).foldl_enter

/-- The totals, charges and trajectories of every event that succeeds are those
of its deposits and of the flights that carry their groups. -/
theorem runEvent_ledger {deposits : List (Deposit α)}
    {totals totals' : RunTotals} {threshold : Option Level}
    {output : EventOutput α} {journal : Journal α}
    (h : (p.runEvent budget deposits source totals).runFrom threshold =
      (.ok (output, source', totals'), journal)) :
    ∃ flights, p.Carried budget source flights source' ∧
      flights.map GroupFlight.load = deposits.zipIdx.flatMap p.loads ∧
      p.Ledger deposits flights output := by
  obtain ⟨entries, hcarried, hloads, hdeposits, haccounts⟩ :=
    runEvent_accounts h
  exact ⟨EventEntry.flights entries, hcarried, hloads,
    haccounts.ledger hcarried hloads hdeposits⟩

/-- The thin layer with groups of ten carriers, at most two for each deposit. -/
def thinPropagation : Propagation Double where
  config :=
    { Transport.thinLayer.config with
      chargePerStep := 10
      maxChargeGroups := 2
      outputTrajectories := true }
  models := Transport.thinLayer.models
  field := Transport.thinLayer.field
  sensor := Transport.thinLayer.sensor

/-- One deposit that is propagated, one of a carrier that is not and one that is
late. -/
def threeDeposits : List (Deposit Double) :=
  [.electrons .zero 25, .holes .zero 7, .ofLocal .zero .electron 5 30.0]

theorem runEvent_ledger_threeDeposits :
    ∃ output flights,
      thinPropagation.Ledger threeDeposits flights output ∧
      flights.map GroupFlight.load =
        threeDeposits.zipIdx.flatMap thinPropagation.loads ∧
      output.summary.deposits = 1 ∧ output.summary.skippedDeposits = 2 ∧
      output.summary.propagatedCharge = 25 ∧ output.charges.size = 2 ∧
      output.summary.coarsenedDeposits = 1 := by
  have hruns : (match (thinPropagation.runEvent 2 threeDeposits
        Transport.middleWords .zero).runFrom none with
      | (.ok (output, _, _), _) =>
          [output.summary.deposits, output.summary.skippedDeposits,
            output.summary.propagatedCharge, output.summary.chargeGroups,
            output.summary.coarsenedDeposits]
      | _ => []) = [1, 2, 25, 2, 1] := by
    decide +kernel
  cases hrun : (thinPropagation.runEvent 2 threeDeposits Transport.middleWords
      .zero).runFrom none with
  | mk ended journal =>
      rw [hrun] at hruns
      cases ended with
      | error fault => cases hruns
      | ok event =>
          obtain ⟨output, source', totals'⟩ := event
          simp only [List.cons.injEq, and_true] at hruns
          obtain ⟨hdeposits, hskipped, hcharge, hgroups, hcoarsened⟩ := hruns
          obtain ⟨flights, -, hloads, hledger⟩ := runEvent_ledger hrun
          have hsize := hledger.chargesSize.symm.trans hgroups
          exact ⟨output, flights, hledger, hloads, hdeposits, hskipped,
            hcharge, hsize, hcoarsened⟩

end Propagation

end CarrierTransport
