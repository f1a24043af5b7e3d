import CarrierTransport.Run.Event
import CarrierTransport.Proofs.Flight.Course
import CarrierTransport.Proofs.Run.Groups

/-!
# What an event gives

An event that succeeds enters its deposits and the flights of their groups into
its output, one after the other.  The flights follow the deposits that are
propagated, cut into their groups, and each continues with the random numbers
that the one before it has left.
-/

namespace CarrierTransport

variable {α σ : Type} [Scalar α] [WordSource σ]

structure GroupFlight (α : Type) where
  deposit : Deposit α
  index : Nat
  group : UInt32
  outcome : Outcome α
  recorder : Option (Recorder α)

/-- What an event enters into its output. -/
inductive EventEntry (α : Type) where
  | deposit (deposit : Deposit α)
  | flight (flight : GroupFlight α)

namespace GroupFlight

def load (f : GroupFlight α) : Deposit α × Nat × UInt32 :=
  (f.deposit, f.index, f.group)

def trajectory? (f : GroupFlight α) : Option (Trajectory α) :=
  f.recorder.map fun recorder =>
    recorder.finish f.deposit.globalTime f.group f.deposit.carrier
      f.outcome.diagnostic

end GroupFlight

namespace EventEntry

def deposit? : EventEntry α → Option (Deposit α)
  | deposit d => some d
  | flight _ => none

def flight? : EventEntry α → Option (GroupFlight α)
  | deposit _ => none
  | flight f => some f

def deposits (entries : List (EventEntry α)) : List (Deposit α) :=
  entries.filterMap deposit?

def flights (entries : List (EventEntry α)) : List (GroupFlight α) :=
  entries.filterMap flight?

def ofDeposit (deposit : Deposit α) (flights : List (GroupFlight α)) :
    List (EventEntry α) :=
  .deposit deposit :: flights.map .flight

omit [Scalar α]

theorem deposits_append (entries more : List (EventEntry α)) :
    deposits (entries ++ more) = deposits entries ++ deposits more :=
  List.filterMap_append

theorem flights_append (entries more : List (EventEntry α)) :
    flights (entries ++ more) = flights entries ++ flights more :=
  List.filterMap_append

theorem deposits_ofDeposit (d : Deposit α) (carried : List (GroupFlight α)) :
    deposits (ofDeposit d carried) = [d] := by
  have hnone : (carried.map flight).filterMap deposit? = [] := by
    rw [List.filterMap_map]
    exact List.filterMap_eq_nil_iff.mpr fun _ _ => rfl
  exact congrArg (d :: ·) hnone

theorem flights_ofDeposit (d : Deposit α) (carried : List (GroupFlight α)) :
    flights (ofDeposit d carried) = carried := by
  unfold flights ofDeposit
  rw [List.filterMap_cons_none rfl, List.filterMap_map]
  exact List.filterMap_some

end EventEntry

namespace Propagation

/-- Whether a deposit is propagated: its carrier is, and it is not late. -/
def accepts (p : Propagation α) (deposit : Deposit α) : Bool :=
  p.config.propagates.get deposit.carrier &&
    !decide (p.config.integrationTime < deposit.localTime)

def groups (p : Propagation α) (deposit : Deposit α) : List UInt32 :=
  (ChargeGroups.ofPlan deposit.charge (p.plan deposit)).toList

def loads (p : Propagation α) (numbered : Deposit α × Nat) :
    List (Deposit α × Nat × UInt32) :=
  if p.accepts numbered.1 then
    (p.groups numbered.1).map (numbered.1, numbered.2, ·)
  else []

def recorder? (p : Propagation α) : Option (Recorder α) :=
  if p.config.outputTrajectories then some (.start p.config.samplingInterval)
  else none

def record (p : Propagation α) (f : GroupFlight α) : PropagatedCharge α :=
  p.propagated f.index f.deposit f.group f.outcome

def enter (p : Propagation α) (output : EventOutput α) :
    EventEntry α → EventOutput α
  | .deposit d =>
      { output with
        summary :=
          if p.accepts d then countDeposit output.summary (p.plan d)
          else { output.summary with
            skippedDeposits := output.summary.skippedDeposits + 1 } }
  | .flight f =>
      { charges := output.charges.push (p.record f)
        trajectories := output.trajectories.map (· ++ f.trajectory?.toArray)
        summary := countGroup output.summary f.group f.outcome }

/-- These groups fly one after the other, the first of them with `source`, and
leave the last source. -/
inductive Carried (p : Propagation α) (budget : Nat) :
    σ → List (GroupFlight α) → σ → Prop
  | done (source : σ) : Carried p budget source [] source
  | flight {source next last : σ} {f : GroupFlight α}
      {flights : List (GroupFlight α)} :
      (p.transport.propagate budget f.deposit.carrier f.deposit.localPosition
        f.deposit.localTime p.recorder? source).result =
          .ok (f.outcome, f.recorder, next) →
      Carried p budget next flights last →
      Carried p budget source (f :: flights) last

section Gives

variable (p : Propagation α) (budget : Nat)

theorem carryGroup_gives (index : Nat) (deposit : Deposit α)
    (progress : EventProgress α σ) (group : UInt32) :
    (p.carryGroup budget index deposit progress group).Gives (do
      let flown ←
        (p.transport.propagate budget deposit.carrier deposit.localPosition
          deposit.localTime
          (progress.output.trajectories.map fun _ =>
            .start p.config.samplingInterval)
          progress.source).result
      return ⟨p.enter progress.output
        (.flight ⟨deposit, index, group, flown.1, flown.2.1⟩),
        flown.2.2⟩) := by
  refine (Transport.propagate_gives _ _ _ _ _ _ _).result.bind fun flown => ?_
  exact (Logged.Gives.forM_log _).after (.pure _)

theorem skip?_eq_none_iff {p : Propagation α} {deposit : Deposit α} :
    p.skip? deposit = none ↔ p.accepts deposit = true := by
  unfold skip? accepts
  cases p.config.propagates.get deposit.carrier <;>
    by_cases h : p.config.integrationTime < deposit.localTime <;> simp [h]

theorem carryDeposit_gives (progress : EventProgress α σ)
    (numbered : Deposit α × Nat) :
    (p.carryDeposit budget progress numbered).Gives
      (if p.accepts numbered.1 then
        (p.groups numbered.1).foldlM
          (fun progress group =>
            (p.carryGroup budget numbered.2 numbered.1 progress group).result)
          ⟨p.enter progress.output (.deposit numbered.1), progress.source⟩
      else
        .ok ⟨p.enter progress.output (.deposit numbered.1),
          progress.source⟩) := by
  obtain ⟨deposit, index⟩ := numbered
  unfold carryDeposit
  dsimp only
  cases haccepts : p.accepts deposit with
  | true =>
      rw [skip?_eq_none_iff.mpr haccepts]
      have hfold (progress : EventProgress α σ) :=
        Logged.Gives.foldlM (fun progress group =>
          (p.carryGroup_gives budget index deposit progress group).result)
          (p.groups deposit) progress
      refine (Logged.Gives.log _).after ?_
      simp only [enter, haccepts, if_true]
      split
      · exact (Logged.Gives.log _).after (hfold _)
      · exact hfold _
  | false =>
      cases hskip : p.skip? deposit with
      | none => simp [skip?_eq_none_iff.mp hskip] at haccepts
      | some reason =>
          simp only [enter, haccepts]
          exact (Logged.Gives.log _).after (.pure _)

theorem carryEvent_gives (deposits : List (Deposit α)) (source : σ) :
    (p.carryEvent budget deposits source).Gives
      (deposits.zipIdx.foldlM
        (fun progress numbered =>
          (p.carryDeposit budget progress numbered).result)
        (p.begin source)) := by
  refine (Logged.Gives.log _).after ?_
  have hfold := Logged.Gives.foldlM (fun progress numbered =>
    (p.carryDeposit_gives budget progress numbered).result)
    deposits.zipIdx (p.begin source)
  have hreport (progress : EventProgress α σ) :
      (do
        progress.output.summary.notices.forM Logged.log
        return progress : Logged α Fault _).Gives (.ok progress) :=
    (Logged.Gives.forM_log _).after (.pure progress)
  have hall := hfold.bind hreport
  change Logged.Gives _ (_ >>= pure) at hall
  rw [bind_pure] at hall
  exact hall

theorem runEvent_gives (deposits : List (Deposit α)) (source : σ)
    (totals : RunTotals) :
    (p.runEvent budget deposits source totals).Gives (do
      let progress ← (p.carryEvent budget deposits source).result
      return (progress.output, progress.source,
        totals.record progress.output.summary)) :=
  (p.carryEvent_gives budget deposits source).result.bind fun _ => .pure _

end Gives

section Entries

variable {p : Propagation α} {budget : Nat}

theorem Carried.append {source middle last : σ}
    {flights more : List (GroupFlight α)}
    (first : p.Carried budget source flights middle)
    (second : p.Carried budget middle more last) :
    p.Carried budget source (flights ++ more) last := by
  induction first with
  | done => exact second
  | flight flown _ ih => exact .flight flown (ih second)

/-- An output keeps trajectories if and only if they are asked for. -/
def Keeps (p : Propagation α) (output : EventOutput α) : Prop :=
  output.trajectories.isSome = p.config.outputTrajectories

omit [WordSource σ] in
theorem keeps_begin (p : Propagation α) (source : σ) :
    p.Keeps (p.begin source).output := by
  unfold Keeps begin
  cases p.config.outputTrajectories <;> rfl

theorem Keeps.enter {output : EventOutput α} (h : p.Keeps output)
    (entry : EventEntry α) : p.Keeps (p.enter output entry) := by
  cases entry with
  | deposit d => exact h
  | flight f => exact (Option.isSome_map).trans h

theorem Keeps.foldl_enter {output : EventOutput α} (h : p.Keeps output)
    (entries : List (EventEntry α)) :
    p.Keeps (entries.foldl p.enter output) := by
  induction entries generalizing output with
  | nil => exact h
  | cons entry entries ih => exact ih (h.enter entry)

omit [Scalar α] in
theorem Keeps.recorder {output : EventOutput α} (h : p.Keeps output) :
    (output.trajectories.map fun _ => .start p.config.samplingInterval) =
      p.recorder? := by
  unfold Keeps at h
  unfold recorder?
  rw [← h]
  cases output.trajectories <;> rfl

theorem carryGroups_ok {index : Nat} {deposit : Deposit α}
    {groups : List UInt32} {progress progress' : EventProgress α σ}
    (h : groups.foldlM (fun progress group =>
      (p.carryGroup budget index deposit progress group).result) progress =
        .ok progress')
    (hkeeps : p.Keeps progress.output) :
    ∃ flights, p.Carried budget progress.source flights progress'.source ∧
      flights.map GroupFlight.load = groups.map (deposit, index, ·) ∧
      progress'.output =
        (flights.map EventEntry.flight).foldl p.enter progress.output := by
  induction groups generalizing progress with
  | nil =>
      cases h
      exact ⟨[], .done _, rfl, rfl⟩
  | cons group groups ih =>
      rw [List.foldlM_cons] at h
      obtain ⟨middle, hgroup, hrest⟩ := bind_eq_ok.mp h
      rw [(p.carryGroup_gives budget index deposit progress group).result_eq,
        hkeeps.recorder] at hgroup
      obtain ⟨⟨outcome, recorder, next⟩, hflown, hmiddle⟩ :=
        bind_eq_ok.mp hgroup
      cases hmiddle
      obtain ⟨flights, hcarried, hloads, houtput⟩ := ih hrest (hkeeps.enter _)
      refine ⟨⟨deposit, index, group, outcome, recorder⟩ :: flights,
        .flight hflown hcarried, ?_, houtput⟩
      rw [List.map_cons, List.map_cons, hloads]
      rfl

theorem carryDeposit_ok {numbered : Deposit α × Nat}
    {progress progress' : EventProgress α σ}
    (h : (p.carryDeposit budget progress numbered).result = .ok progress')
    (hkeeps : p.Keeps progress.output) :
    ∃ flights, p.Carried budget progress.source flights progress'.source ∧
      flights.map GroupFlight.load = p.loads numbered ∧
      progress'.output =
        (EventEntry.ofDeposit numbered.1 flights).foldl p.enter
          progress.output := by
  rw [(p.carryDeposit_gives budget progress numbered).result_eq] at h
  unfold loads
  cases haccepts : p.accepts numbered.1 with
  | true =>
      rw [if_pos haccepts] at h
      exact carryGroups_ok h (hkeeps.enter _)
  | false =>
      rw [if_neg (by simp [haccepts])] at h
      cases h
      exact ⟨[], .done _, rfl, rfl⟩

theorem carryDeposits_ok {numbered : List (Deposit α × Nat)}
    {progress progress' : EventProgress α σ}
    (h : numbered.foldlM (fun progress numbered =>
      (p.carryDeposit budget progress numbered).result) progress =
        .ok progress')
    (hkeeps : p.Keeps progress.output) :
    ∃ entries, p.Carried budget progress.source (EventEntry.flights entries)
        progress'.source ∧
      (EventEntry.flights entries).map GroupFlight.load =
        numbered.flatMap p.loads ∧
      EventEntry.deposits entries = numbered.map Prod.fst ∧
      progress'.output = entries.foldl p.enter progress.output := by
  induction numbered generalizing progress with
  | nil =>
      cases h
      exact ⟨[], .done _, rfl, rfl, rfl⟩
  | cons numbered rest ih =>
      rw [List.foldlM_cons] at h
      obtain ⟨middle, hdeposit, hrest⟩ := bind_eq_ok.mp h
      obtain ⟨flights, hflights, hloads, hmiddle⟩ :=
        carryDeposit_ok hdeposit hkeeps
      have hkept : p.Keeps middle.output := by
        rw [hmiddle]
        exact hkeeps.foldl_enter _
      obtain ⟨entries, hcarried, hmore, hdeposits, houtput⟩ := ih hrest hkept
      refine ⟨EventEntry.ofDeposit numbered.1 flights ++ entries, ?_, ?_, ?_,
        ?_⟩
      · rw [EventEntry.flights_append, EventEntry.flights_ofDeposit]
        exact hflights.append hcarried
      · rw [EventEntry.flights_append, EventEntry.flights_ofDeposit,
          List.map_append, hloads, hmore, List.flatMap_cons]
      · rw [EventEntry.deposits_append, EventEntry.deposits_ofDeposit,
          hdeposits]
        rfl
      · rw [houtput, hmiddle, List.foldl_append]

theorem runEvent_ok {deposits : List (Deposit α)} {source source' : σ}
    {totals totals' : RunTotals} {output : EventOutput α}
    (h : (p.runEvent budget deposits source totals).result =
      .ok (output, source', totals')) :
    ∃ entries, p.Carried budget source (EventEntry.flights entries) source' ∧
      (EventEntry.flights entries).map GroupFlight.load =
        deposits.zipIdx.flatMap p.loads ∧
      EventEntry.deposits entries = deposits ∧
      output = entries.foldl p.enter (p.begin source).output ∧
      totals' = totals.record output.summary := by
  rw [(p.runEvent_gives budget deposits source totals).result_eq] at h
  obtain ⟨progress, hevent, h⟩ := bind_eq_ok.mp h
  cases h
  rw [(p.carryEvent_gives budget deposits source).result_eq] at hevent
  obtain ⟨entries, hcarried, hloads, hdeposits, houtput⟩ :=
    carryDeposits_ok hevent (p.keeps_begin source)
  rw [List.zipIdx_map_fst] at hdeposits
  exact ⟨entries, hcarried, hloads, hdeposits, houtput, rfl⟩

end Entries

/-- Propagations whose flights are the same have the same events, if they skip
the same deposits, cut them into the same groups and record them alike. -/
theorem runEvent_congr {p q : Propagation α} {budget : Nat}
    (hpropagate : ∀ carrier position start recorder (source : σ),
      q.transport.propagate budget carrier position start recorder source =
        p.transport.propagate budget carrier position start recorder source)
    (hskip : q.skip? = p.skip?) (hplan : q.plan = p.plan)
    (hinterval : q.config.samplingInterval = p.config.samplingInterval)
    (hpropagated : q.propagated = p.propagated)
    (hbegin : (q.begin : σ → EventProgress α σ) = p.begin)
    (deposits : List (Deposit α)) (source : σ) (totals : RunTotals) :
    q.runEvent budget deposits source totals =
      p.runEvent budget deposits source totals := by
  have hgroup : (q.carryGroup budget : Nat → Deposit α → EventProgress α σ →
      UInt32 → Logged α Fault (EventProgress α σ)) = p.carryGroup budget := by
    funext index d progress group
    unfold carryGroup
    simp only [hpropagate, hinterval, hpropagated]
  have hdeposit : (q.carryDeposit budget : EventProgress α σ →
      Deposit α × Nat → Logged α Fault (EventProgress α σ)) =
        p.carryDeposit budget := by
    funext progress numbered
    unfold carryDeposit
    simp only [hgroup, hskip, hplan]
  unfold runEvent carryEvent
  rw [hdeposit, hbegin]

end Propagation

end CarrierTransport
