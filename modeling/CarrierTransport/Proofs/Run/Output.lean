import CarrierTransport.Proofs.Run.Ledger

/-!
# The output of an event

The flights of an event depend on the groups that it carries and on the random
numbers before the first of them, and its output is made of its deposits and
flights alone.  So an event is its flights, one after the other, and a function
of them.
-/

namespace CarrierTransport

variable {α σ : Type} [Scalar α]

/-- The sum of the sizes of groups times their times, added to `time` one after
the other. -/
def timeFrom (time : α) (flights : List (GroupFlight α)) : α :=
  flights.foldl
    (fun sum f => sum + Scalar.ofNat f.group.toNat * f.outcome.time) time

theorem timeFrom_append (time : α) (flights more : List (GroupFlight α)) :
    timeFrom time (flights ++ more) = timeFrom (timeFrom time flights) more :=
  List.foldl_append

namespace Propagation

/-- The output of these deposits and of the flights of their groups. -/
def outputOf (p : Propagation α) (deposits : List (Deposit α))
    (flights : List (GroupFlight α)) : EventOutput α where
  charges := (flights.map p.record).toArray
  trajectories :=
    if p.config.outputTrajectories then
      some (flights.filterMap GroupFlight.trajectory?).toArray
    else none
  summary :=
    { propagatedCharge := (flights.map (·.group.toNat)).sum
      recombinedCharge := chargeIn .recombined flights
      trappedCharge := chargeIn .trapped flights
      chargeGroups := flights.length
      integrationSteps := (flights.map (·.outcome.steps)).sum
      weightedTime := timeFrom 0.0 flights
      deposits := deposits.countP p.accepts
      skippedDeposits := deposits.countP (!p.accepts ·)
      coarsenedDeposits :=
        deposits.countP fun d => p.accepts d && (p.plan d).coarsened }

section Output

variable (p : Propagation α)

/-- Deposits are counted apart from flights, so it does not matter which of
them is entered first. -/
theorem enter_comm (output : EventOutput α) (d : Deposit α)
    (f : GroupFlight α) :
    p.enter (p.enter output (.flight f)) (.deposit d) =
      p.enter (p.enter output (.deposit d)) (.flight f) := by
  cases haccepts : p.accepts d <;>
    simp [enter, haccepts, countDeposit, countGroup]

def enterAll (output : EventOutput α) (deposits : List (Deposit α))
    (flights : List (GroupFlight α)) : EventOutput α :=
  (flights.map EventEntry.flight).foldl p.enter
    ((deposits.map EventEntry.deposit).foldl p.enter output)

theorem foldl_enter_deposits_comm (output : EventOutput α)
    (deposits : List (Deposit α)) (f : GroupFlight α) :
    (deposits.map EventEntry.deposit).foldl p.enter
        (p.enter output (.flight f)) =
      p.enter ((deposits.map EventEntry.deposit).foldl p.enter output)
        (.flight f) := by
  induction deposits generalizing output with
  | nil => rfl
  | cons d deposits ih =>
      rw [List.map_cons, List.foldl_cons, List.foldl_cons, enter_comm]
      exact ih _

theorem foldl_enter_comm (output : EventOutput α)
    (deposits : List (Deposit α)) (flights : List (GroupFlight α)) :
    (deposits.map EventEntry.deposit).foldl p.enter
        ((flights.map EventEntry.flight).foldl p.enter output) =
      p.enterAll output deposits flights := by
  unfold enterAll
  induction flights generalizing output with
  | nil => rfl
  | cons f flights ih =>
      rw [List.map_cons, List.foldl_cons, List.foldl_cons, ih,
        foldl_enter_deposits_comm]

theorem enterAll_append (output : EventOutput α)
    (deposits more : List (Deposit α)) (flights others : List (GroupFlight α)) :
    p.enterAll (p.enterAll output deposits flights) more others =
      p.enterAll output (deposits ++ more) (flights ++ others) := by
  have hcomm := p.foldl_enter_comm
    ((deposits.map EventEntry.deposit).foldl p.enter output) more flights
  unfold enterAll at hcomm ⊢
  rw [hcomm]
  simp only [List.map_append, List.foldl_append]

theorem weightedTime_enterAll (output : EventOutput α)
    (deposits : List (Deposit α)) (flights : List (GroupFlight α)) :
    (p.enterAll output deposits flights).summary.weightedTime =
      timeFrom output.summary.weightedTime flights := by
  have hdeposits : ((deposits.map EventEntry.deposit).foldl p.enter
      output).summary.weightedTime = output.summary.weightedTime := by
    induction deposits generalizing output with
    | nil => rfl
    | cons d deposits ih =>
        rw [List.map_cons, List.foldl_cons, ih]
        cases haccepts : p.accepts d <;> simp [enter, haccepts, countDeposit]
  rw [← hdeposits, enterAll]
  generalize (deposits.map EventEntry.deposit).foldl p.enter output = entered
  induction flights generalizing entered with
  | nil => rfl
  | cons f flights ih => exact ih _

theorem Accounts.eq_outputOf {entries : List (EventEntry α)}
    {output : EventOutput α} (h : p.Accounts entries output)
    (htime : output.summary.weightedTime =
      timeFrom 0.0 (EventEntry.flights entries)) :
    output = p.outputOf (EventEntry.deposits entries)
      (EventEntry.flights entries) := by
  obtain ⟨charges, trajectories, summary⟩ := output
  obtain ⟨hcharges, htrajectories, hpropagated, hrecombined, htrapped, hgroups,
    hsteps, hdeposits, hskipped, hcoarsened⟩ := h
  unfold outputOf
  congr 1
  · rw [← hcharges]
  · revert htrajectories
    cases p.config.outputTrajectories <;> cases trajectories <;>
      simp +contextual [← Array.toList_inj]
  · rw [← hpropagated, ← hrecombined, ← htrapped, ← hgroups, ← hsteps,
      ← hdeposits, ← hskipped, ← hcoarsened, ← htime]

theorem enterAll_begin (source : σ) (deposits : List (Deposit α))
    (flights : List (GroupFlight α)) :
    p.enterAll (p.begin source).output deposits flights =
      p.outputOf deposits flights := by
  have haccounts : p.Accounts
      (deposits.map EventEntry.deposit ++ flights.map EventEntry.flight)
      (p.enterAll (p.begin source).output deposits flights) := by
    rw [enterAll, ← List.foldl_append]
    exact (p.accounts_begin source).foldl_enter
  have hflights : EventEntry.flights (deposits.map EventEntry.deposit ++
      flights.map EventEntry.flight) = flights := by
    simp [EventEntry.flights, EventEntry.flight?, List.filterMap_append,
      List.filterMap_map, Function.comp_def]
  have hdeposits : EventEntry.deposits (deposits.map EventEntry.deposit ++
      flights.map EventEntry.flight) = deposits := by
    simp [EventEntry.deposits, EventEntry.deposit?, List.filterMap_append,
      List.filterMap_map, Function.comp_def]
  have houtput := haccounts.eq_outputOf p (by
    rw [hflights]
    exact p.weightedTime_enterAll (p.begin source).output deposits flights)
  rw [hflights, hdeposits] at houtput
  exact houtput

end Output

/-! ## Flights apart from outputs -/

variable [WordSource σ] (p : Propagation α) (budget : Nat)

/-- The flights of these groups, one after the other, and the source that the
last of them leaves. -/
def flyLoads : List (Deposit α × Nat × UInt32) → σ →
    Except Fault (List (GroupFlight α) × σ)
  | [], source => .ok ([], source)
  | (d, index, group) :: loads, source => do
      let (outcome, recorder, source) ←
        (p.transport.propagate budget d.carrier d.localPosition d.localTime
          p.recorder? source).result
      let (flights, source) ← flyLoads loads source
      return (⟨d, index, group, outcome, recorder⟩ :: flights, source)

theorem flyLoads_append (loads more : List (Deposit α × Nat × UInt32))
    (source : σ) :
    p.flyLoads budget (loads ++ more) source = (do
      let (flights, source) ← p.flyLoads budget loads source
      let (others, source) ← p.flyLoads budget more source
      return (flights ++ others, source)) := by
  induction loads generalizing source with
  | nil =>
      simp only [List.nil_append, flyLoads, ok_bind]
      cases p.flyLoads budget more source <;> rfl
  | cons load loads ih =>
      obtain ⟨d, index, group⟩ := load
      simp only [List.cons_append, flyLoads, ih]
      simp only [bind_assoc, pure_bind, List.cons_append]

section Progress

variable {p budget} {progress : EventProgress α σ}

omit [WordSource σ] in
theorem Keeps.enterAll {output : EventOutput α} (h : p.Keeps output)
    (deposits : List (Deposit α)) (flights : List (GroupFlight α)) :
    p.Keeps (p.enterAll output deposits flights) :=
  (h.foldl_enter _).foldl_enter _

theorem carryGroups_eq (hkeeps : p.Keeps progress.output) (d : Deposit α)
    (index : Nat) (groups : List UInt32) :
    groups.foldlM (fun progress group =>
        (p.carryGroup budget index d progress group).result) progress = (do
      let (flights, source) ←
        p.flyLoads budget (groups.map (d, index, ·)) progress.source
      return ⟨p.enterAll progress.output [] flights, source⟩) := by
  induction groups generalizing progress with
  | nil => rfl
  | cons group groups ih =>
      rw [List.foldlM_cons,
        (p.carryGroup_gives budget index d progress group).result_eq,
        hkeeps.recorder, List.map_cons, flyLoads]
      simp only [bind_assoc, pure_bind]
      refine bind_congr fun flown => ?_
      rw [ih (hkeeps.enter _)]
      rfl

theorem carryDeposit_eq (hkeeps : p.Keeps progress.output)
    (numbered : Deposit α × Nat) :
    (p.carryDeposit budget progress numbered).result = (do
      let (flights, source) ←
        p.flyLoads budget (p.loads numbered) progress.source
      return ⟨p.enterAll progress.output [numbered.1] flights, source⟩) := by
  rw [(p.carryDeposit_gives budget progress numbered).result_eq, loads]
  cases haccepts : p.accepts numbered.1 with
  | true =>
      rw [if_pos rfl, if_pos rfl]
      exact carryGroups_eq (hkeeps.enter _) numbered.1 numbered.2 _
  | false => rfl

theorem carryDeposits_eq (hkeeps : p.Keeps progress.output)
    (numbered : List (Deposit α × Nat)) :
    numbered.foldlM (fun progress numbered =>
        (p.carryDeposit budget progress numbered).result) progress = (do
      let (flights, source) ←
        p.flyLoads budget (numbered.flatMap p.loads) progress.source
      return ⟨p.enterAll progress.output (numbered.map Prod.fst) flights,
        source⟩) := by
  -- The deposits and flights of the rest are entered after those of the first,
  -- so the induction is over all progress.
  induction numbered generalizing progress with
  | nil => rfl
  | cons numbered rest ih =>
      rw [List.foldlM_cons, carryDeposit_eq hkeeps, List.flatMap_cons,
        flyLoads_append]
      simp only [bind_assoc, pure_bind]
      refine bind_congr fun flown => ?_
      rw [ih (hkeeps.enterAll _ _)]
      refine bind_congr fun others => ?_
      dsimp only
      rw [enterAll_append]
      rfl

end Progress

/-- What an event gives, whatever the totals before it. -/
def event (deposits : List (Deposit α)) (source : σ) :
    Except Fault (EventOutput α × σ) := do
  let given ← (p.runEvent budget deposits source .zero).result
  return (given.1, given.2.1)

/-- An event flies the groups of its deposits in their order, and its output is
that of its deposits and flights. -/
theorem event_eq (deposits : List (Deposit α)) (source : σ) :
    p.event budget deposits source = (do
      let (flights, source) ←
        p.flyLoads budget (deposits.zipIdx.flatMap p.loads) source
      return (p.outputOf deposits flights, source)) := by
  rw [event, (p.runEvent_gives budget deposits source .zero).result_eq,
    (p.carryEvent_gives budget deposits source).result_eq,
    carryDeposits_eq (p.keeps_begin source)]
  simp only [bind_assoc, pure_bind]
  refine bind_congr fun flown => ?_
  rw [List.zipIdx_map_fst, enterAll_begin]

theorem runEvent_eq_event (deposits : List (Deposit α)) (source : σ)
    (totals : RunTotals) (threshold : Option Level) :
    ((p.runEvent budget deposits source totals).runFrom threshold).1 = (do
      let (output, source) ← p.event budget deposits source
      return (output, source, totals.record output.summary)) := by
  rw [(p.runEvent_gives budget deposits source totals).runFrom threshold,
    event, (p.runEvent_gives budget deposits source .zero).result_eq]
  simp only [bind_assoc, pure_bind]

section Flown

variable {p budget}

theorem carried_of_flyLoads {loads : List (Deposit α × Nat × UInt32)}
    {flights : List (GroupFlight α)} {source source' : σ}
    (h : p.flyLoads budget loads source = .ok (flights, source')) :
    p.Carried budget source flights source' ∧
      flights.map GroupFlight.load = loads := by
  induction loads generalizing source flights with
  | nil =>
      cases h
      exact ⟨.done _, rfl⟩
  | cons load loads ih =>
      obtain ⟨d, index, group⟩ := load
      obtain ⟨⟨outcome, recorder, next⟩, hflown, h⟩ := bind_eq_ok.mp h
      obtain ⟨⟨others, last⟩, hothers, h⟩ := bind_eq_ok.mp h
      cases h
      obtain ⟨hcarried, hloads⟩ := ih hothers
      refine ⟨.flight hflown hcarried, ?_⟩
      rw [List.map_cons, hloads]
      rfl

theorem Carried.flown {flights : List (GroupFlight α)} {source source' : σ}
    (h : p.Carried budget source flights source') :
    ∀ f ∈ flights, ∃ before after : σ,
      (p.transport.propagate budget f.deposit.carrier f.deposit.localPosition
        f.deposit.localTime p.recorder? before).result =
          .ok (f.outcome, f.recorder, after) := by
  induction h with
  | done => simp
  | flight flown _ ih =>
      intro f hf
      obtain rfl | hf := List.mem_cons.mp hf
      · exact ⟨_, _, flown⟩
      · exact ih f hf

end Flown

end Propagation

end CarrierTransport
