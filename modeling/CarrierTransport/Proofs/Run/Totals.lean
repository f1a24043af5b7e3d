import CarrierTransport.Proofs.Run.Isolation
import Mathlib.Algebra.BigOperators.Group.List.Basic
import Mathlib.Data.UInt

/-!
# The totals of a pool

Several workers add to the totals at once, one counter at a time.  At any time
each counter has what the results that were answered add to it, and what those
workers that are not through with their additions have added so far.  When no
run is under way the totals are therefore the sums over the results that the
runs have given.
-/

namespace CarrierTransport

variable {α : Type} [Scalar α]

/-- What an event adds to a counter, before the counter wraps around. -/
def EventSummary.share (s : EventSummary α) : Counter → Nat
  | .events => 1
  | .propagatedCharge => s.propagatedCharge
  | .recombinedCharge => s.recombinedCharge
  | .trappedCharge => s.trappedCharge
  | .chargeGroups => s.chargeGroups
  | .integrationSteps => s.integrationSteps
  | .totalTimePs => min (Scalar.nearest (s.weightedTime / Units.ps)) wordMax
  | .deposits => s.deposits
  | .skippedDeposits => s.skippedDeposits
  | .coarsenedDeposits => s.coarsenedDeposits

namespace Counter

/-- What additions come to on one counter. -/
def sumOf (counter : Counter) (additions : List (Counter × UInt64)) : UInt64 :=
  (additions.map fun (c, n) => if c = counter then n else 0).sum

def word (counter : Counter) (result : EventResult α) : UInt64 :=
  (result.output.summary.share counter).toUInt64

/-- What results come to on one counter. -/
def worth (counter : Counter) (results : List (EventResult α)) : UInt64 :=
  (results.map counter.word).sum

theorem sumOf_cons (counter c : Counter) (n : UInt64)
    (additions : List (Counter × UInt64)) :
    counter.sumOf ((c, n) :: additions) =
      (if c = counter then n else 0) + counter.sumOf additions := by
  unfold sumOf
  rw [List.map_cons, List.sum_cons]

theorem sumOf_additions (counter : Counter) (s : EventSummary α) :
    counter.sumOf s.additions = (s.share counter).toUInt64 := by
  unfold sumOf EventSummary.additions EventSummary.share wholePs
  cases counter <;> simp

theorem worth_append (counter : Counter) (results more : List (EventResult α)) :
    counter.worth (results ++ more) =
      counter.worth results + counter.worth more := by
  unfold worth
  rw [List.map_append, List.sum_append]

theorem worth_results_append (counter : Counter)
    (answers more : List (EventAnswer α)) :
    counter.worth (Pool.results (answers ++ more)) =
      counter.worth (Pool.results answers) +
        counter.worth (Pool.results more) := by
  unfold Pool.results
  rw [List.filterMap_append, worth_append]

theorem worth_perm (counter : Counter) {results more : List (EventResult α)}
    (h : results.Perm more) : counter.worth results = counter.worth more :=
  (h.map counter.word).sum_eq

theorem toNat_worth (counter : Counter) (results : List (EventResult α)) :
    (counter.worth results).toNat =
      (results.map (·.output.summary.share counter)).sum % 2 ^ 64 := by
  induction results with
  | nil => rfl
  | cons result results ih =>
      unfold worth at ih ⊢
      rw [List.map_cons, List.sum_cons, UInt64.toNat_add, ih, List.map_cons,
        List.sum_cons]
      exact (Nat.add_mod _ _ _).symm

end Counter

namespace RunTotals

theorem eq_of_get {t u : RunTotals}
    (h : ∀ counter, t.get counter = u.get counter) : t = u := by
  cases t
  cases u
  congr 1
  · exact h .events
  · exact h .propagatedCharge
  · exact h .recombinedCharge
  · exact h .trappedCharge
  · exact h .chargeGroups
  · exact h .integrationSteps
  · exact h .totalTimePs
  · exact h .deposits
  · exact h .skippedDeposits
  · exact h .coarsenedDeposits

theorem get_foldl_add (additions : List (Counter × UInt64)) (t : RunTotals)
    (counter : Counter) :
    (additions.foldl (fun t (c, n) => t.add c n) t).get counter =
      t.get counter + counter.sumOf additions := by
  induction additions generalizing t with
  | nil => exact (add_zero _).symm
  | cons addition additions ih =>
      obtain ⟨c, n⟩ := addition
      rw [List.foldl_cons, ih, get_add, Counter.sumOf_cons]
      split
      · exact add_assoc _ _ _
      · rw [zero_add]

theorem get_record (t : RunTotals) (s : EventSummary α) (counter : Counter) :
    (t.record s).get counter =
      t.get counter + (s.share counter).toUInt64 := by
  unfold record
  rw [get_foldl_add, Counter.sumOf_additions]

theorem get_tally (results : List (EventResult α)) (t : RunTotals)
    (counter : Counter) :
    (Pool.tally t results).get counter =
      t.get counter + counter.worth results := by
  unfold Pool.tally
  induction results generalizing t with
  | nil => exact (add_zero _).symm
  | cons result results ih =>
      rw [List.foldl_cons, ih, get_record, add_assoc]
      rfl

end RunTotals

namespace Pool

omit [Scalar α] in
theorem results_perm {answers more : List (EventAnswer α)}
    (h : answers.Perm more) : (results answers).Perm (results more) :=
  h.filterMap _

omit [Scalar α] in
theorem results_cons (answer : EventAnswer α) (answers : List (EventAnswer α)) :
    results (answer :: answers) =
      (answer.2.map (⟨answer.1, ·⟩)).toList ++ results answers := by
  obtain ⟨event, output⟩ := answer
  cases output <;> rfl

theorem results_filter (p : Propagation α) (seed : UInt64)
    (jobs : List (Job α)) :
    results ((jobs.filter fun job => (job.answer p seed).2.isSome).map
        (Job.answer p seed)) = results (jobs.map (Job.answer p seed)) := by
  induction jobs with
  | nil => rfl
  | cons job jobs ih =>
      rw [List.map_cons, results_cons, ← ih]
      cases houtput : (job.answer p seed).2 with
      | none =>
          rw [List.filter_cons_of_neg (by simp [houtput])]
          rfl
      | some output =>
          rw [List.filter_cons_of_pos (by simp [houtput]), List.map_cons,
            results_cons, houtput]

theorem finish_gives {ε : Type} (pool : Pool α) :
    (pool.finish : Logged α ε RunTotals).Gives (.ok pool.totals) :=
  (Logged.Gives.forM_log _).after (.pure _)

end Pool

namespace WorkerPhase

/-- What a worker has added to a counter for an event that it has not
answered. -/
def added (counter : Counter) : WorkerPhase α → UInt64
  | counting result left => counter.word result - counter.sumOf left
  | idle | carrying _ | failed _ | gone => 0

theorem added_counting (counter c : Counter) (n : UInt64)
    (result : EventResult α) (left : List (Counter × UInt64)) :
    (counting result left).added counter =
      (counting result ((c, n) :: left)).added counter +
        if c = counter then n else 0 := by
  change counter.word result - counter.sumOf left =
    counter.word result - counter.sumOf ((c, n) :: left) + _
  rw [Counter.sumOf_cons]
  abel

theorem added_afterEvent (counter : Counter) (answer : EventAnswer α) :
    (afterEvent answer).added counter = 0 := by
  obtain ⟨event, output⟩ := answer
  cases output with
  | none => rfl
  | some output =>
      -- All of its additions are still to come.
      change counter.word ⟨event, output⟩ -
        counter.sumOf output.summary.additions = 0
      rw [Counter.sumOf_additions]
      exact sub_self _

theorem added_of_answer? (counter : Counter) {phase : WorkerPhase α}
    {answer : EventAnswer α} (h : phase.answer? = some answer) :
    phase.added counter = counter.worth (Pool.results [answer]) := by
  cases phase with
  | counting result left =>
      cases left with
      | nil =>
          cases h
          exact (sub_zero _).trans (add_zero _).symm
      | cons first left => cases h
  | failed event =>
      cases h
      rfl
  | idle | carrying | gone => cases h

theorem added_of_not_holds (counter : Counter) {phase : WorkerPhase α}
    (h : phase.holds = false) : phase.added counter = 0 := by
  cases phase with
  | idle | gone => rfl
  | carrying | counting | failed => cases h

end WorkerPhase

namespace PoolState

variable {p : Propagation α} {seed : UInt64} {n : Nat} {s t : PoolState α}
variable {given : List (EventResult α)} {move : PoolMove}

def added (s : PoolState α) (counter : Counter) : UInt64 :=
  (s.workers.map (WorkerPhase.added counter)).sum

theorem added_setWorker (counter : Counter) {worker : Nat}
    {before : WorkerPhase α} (h : s.workers[worker]? = some before)
    (after : WorkerPhase α) :
    (s.setWorker worker after).added counter + before.added counter =
      s.added counter + after.added counter :=
  sum_map_set _ h after

theorem added_setWorker_eq (counter : Counter) {worker : Nat}
    {before : WorkerPhase α} (h : s.workers[worker]? = some before)
    {after : WorkerPhase α} (heq : after.added counter = before.added counter) :
    (s.setWorker worker after).added counter = s.added counter := by
  have hadded := added_setWorker counter h after
  rw [heq] at hadded
  exact add_right_cancel hadded

/-- What is in the counters is what the results have added: those of earlier
runs, those that are received or answered, and as much of the others as their
workers have come to. -/
def Booked (s : PoolState α) (given : List (EventResult α)) : Prop :=
  ∀ counter, s.totals.get counter =
    counter.worth given + counter.worth (Pool.results s.received) +
      counter.worth (Pool.results s.answers) + s.added counter

theorem booked_start : (start n : PoolState α).Booked [] := by
  intro counter
  have hadded : (start n : PoolState α).added counter = 0 := by
    unfold added start
    rw [List.map_replicate, List.sum_replicate]
    exact smul_zero n
  rw [hadded]
  cases counter <;> rfl

theorem Booked.of_moves (hs : s.Booked given) (h : s.Moves p seed move t) :
    t.Booked given := by
  intro counter
  have hcounter := hs counter
  cases h with
  | send | close => exact hcounter
  | @take worker job rest hworker hqueue =>
      have hsame : (WorkerPhase.carrying job).added counter =
          (WorkerPhase.idle : WorkerPhase α).added counter := rfl
      have hadded := added_setWorker_eq counter hworker hsame
      exact hcounter.trans (congrArg _ hadded.symm)
  | @carry worker job hworker =>
      have hnone := WorkerPhase.added_afterEvent counter (job.answer p seed)
      have hadded := added_setWorker_eq counter hworker hnone
      exact hcounter.trans (congrArg _ hadded.symm)
  | @count worker result c n left hworker =>
      have hadded := added_setWorker counter hworker (.counting result left)
      rw [WorkerPhase.added_counting counter c n result left,
        add_comm (WorkerPhase.added counter _), ← add_assoc] at hadded
      -- The part of the worker grows by what the counter grows by.
      change (s.totals.add c n).get counter = counter.worth given +
        counter.worth (Pool.results s.received) +
        counter.worth (Pool.results s.answers) +
        (s.setWorker worker (.counting result left)).added counter
      rw [add_right_cancel hadded, RunTotals.get_add, ← add_assoc, ← hcounter]
      split
      · rfl
      · exact (add_zero _).symm
  | @answer worker phase answer hworker hanswer =>
      have hadded := added_setWorker counter hworker .idle
      rw [WorkerPhase.added_of_answer? counter hanswer] at hadded
      -- All of the result goes over from the worker to the answers.
      change _ = s.added counter + 0 at hadded
      change s.totals.get counter = counter.worth given +
        counter.worth (Pool.results s.received) +
        counter.worth (Pool.results (s.answers ++ [answer])) +
        (s.setWorker worker .idle).added counter
      rw [hcounter, Counter.worth_results_append, ← add_zero (s.added counter),
        ← hadded]
      abel
  | @receive answer rest hunsent hrest hless =>
      rw [hrest, ← List.singleton_append, Counter.worth_results_append]
        at hcounter
      change s.totals.get counter = counter.worth given +
        counter.worth (Pool.results (s.received ++ [answer])) +
        counter.worth (Pool.results rest) + s.added counter
      rw [hcounter, Counter.worth_results_append]
      abel
  | @leave worker hworker hqueue hclosed =>
      have hsame : (WorkerPhase.gone : WorkerPhase α).added counter =
          (WorkerPhase.idle : WorkerPhase α).added counter := rfl
      have hadded := added_setWorker_eq counter hworker hsame
      exact hcounter.trans (congrArg _ hadded.symm)

theorem worth_results (counter : Counter) (s : PoolState α) :
    counter.worth s.results = counter.worth (Pool.results s.received) :=
  counter.worth_perm (Pool.inOrder_perm _)

theorem Booked.of_beginRun? {jobs : List (Job α)} (hs : s.Booked given)
    (h : s.beginRun? jobs = some t) : t.Booked (given ++ s.results) := by
  obtain ⟨-, -, rfl⟩ := beginRun?_eq_some.mp h
  intro counter
  change s.totals.get counter = counter.worth (given ++ s.results) + 0 +
    counter.worth (Pool.results s.answers) + s.added counter
  rw [hs counter, Counter.worth_append, worth_results, add_zero]

theorem Reachable.booked (h : Reachable p seed n s given) : s.Booked given := by
  induction h with
  | start => exact booked_start
  | beginRun jobs _ hbegin ih => exact ih.of_beginRun? hbegin
  | move move _ hmove ih => exact ih.of_moves (moves_of_move? hmove)

theorem Reachable.get_totals (h : Reachable p seed n s given)
    (hcomplete : s.isComplete = true) (counter : Counter) :
    s.totals.get counter = counter.worth (given ++ s.results) := by
  have hheld := h.sound.held_of_isComplete hcomplete
  have hadded : s.added counter = 0 := by
    refine List.sum_eq_zero fun n hn => ?_
    obtain ⟨phase, hphase, rfl⟩ := List.mem_map.mp hn
    exact WorkerPhase.added_of_not_holds counter
      (holds_of_held_eq_zero hheld hphase)
  rw [h.booked counter, (h.sound.idle_of_isComplete hcomplete).2.1, hadded,
    add_zero, Counter.worth_append, worth_results]
  exact add_zero _

theorem Reachable.totals_eq (h : Reachable p seed n s given)
    (hcomplete : s.isComplete = true) :
    s.totals = Pool.tally .zero (given ++ s.results) := by
  refine RunTotals.eq_of_get fun counter => ?_
  rw [h.get_totals hcomplete, RunTotals.get_tally]
  cases counter <;> exact (zero_add _).symm

/-- A run adds to the totals what its jobs add that do not fail. -/
theorem Reachable.totals_of_run {u : PoolState α} {jobs : List (Job α)}
    {schedule : List PoolMove} (h : Reachable p seed n s given)
    (hbegin : s.beginRun? jobs = some t)
    (hschedule : t.follow? p seed schedule = some u)
    (hcomplete : u.isComplete = true) :
    u.totals =
      Pool.tally s.totals (Pool.results (jobs.map (Job.answer p seed))) := by
  have hs := (beginRun?_eq_some.mp hbegin).2.1
  have hu := h.run hbegin hschedule
  have hresults := Pool.results_perm
    (received_of_follow? h.sound hbegin hschedule hcomplete)
  refine RunTotals.eq_of_get fun counter => ?_
  rw [hu.get_totals hcomplete, RunTotals.get_tally, h.get_totals hs,
    Counter.worth_append, worth_results, counter.worth_perm hresults]

/-- What holds of the totals of a pool in every state that it can reach. -/
structure Accounted (p : Propagation α) (seed : UInt64) (s : PoolState α)
    (given : List (EventResult α)) : Prop where
  booked : s.Booked given
  closed : s.isOpen = false → s.isComplete = true
  /-- The totals that a pool gives at its end are those of all results. -/
  finish : s.isComplete = true → ∀ pool : Pool α, pool.totals = s.totals →
    (pool.finish : Logged α Fault RunTotals).result =
      .ok (Pool.tally .zero (given ++ s.results))
  events : s.isComplete = true →
    s.totals.events.toNat = (given ++ s.results).length % 2 ^ 64
  counters : s.isComplete = true → ∀ counter,
    (s.totals.get counter).toNat = ((given ++ s.results).map fun result =>
      result.output.summary.share counter).sum % 2 ^ 64
  /-- A run adds what it would add without those of its jobs that fail. -/
  failed : ∀ jobs t schedule u, s.beginRun? jobs = some t →
    t.follow? p seed schedule = some u → u.isComplete = true →
    u.totals = Pool.tally s.totals (Pool.results
      ((jobs.filter fun job => (job.answer p seed).2.isSome).map
        (Job.answer p seed)))

/-- Over any runs, under any schedule and whichever events fail, the totals are
the sums over the results that the runs have given. -/
theorem accounted_of_reachable (h : Reachable p seed n s given) :
    s.Accounted p seed given where
  booked := h.booked
  closed := h.sound.closed
  finish hcomplete pool hpool := by
    rw [pool.finish_gives.result_eq, hpool, h.totals_eq hcomplete]
  events hcomplete := by
    have hone : ((given ++ s.results).map fun result =>
        result.output.summary.share .events).sum =
          (given ++ s.results).length := by
      change (List.map (fun _ => 1) (given ++ s.results)).sum = _
      rw [List.map_const', List.sum_replicate_nat, Nat.mul_one]
    rw [← hone, ← Counter.toNat_worth, ← h.get_totals hcomplete]
    rfl
  counters hcomplete counter := by
    rw [h.get_totals hcomplete, Counter.toNat_worth]
  failed jobs t schedule u hbegin hschedule hcomplete := by
    rw [Pool.results_filter]
    exact h.totals_of_run hbegin hschedule hcomplete

/-- Two runs of the three events, of which one fails each time. -/
theorem accounted_after_two_runs :
    ∃ (u : PoolState Double) (given : List (EventResult Double)),
      Reachable quietHalfField 42 2 u given ∧
        (u.isOpen, u.totals.events, u.totals.propagatedCharge) =
          (false, 4, 24) ∧
        u.Accounted quietHalfField 42 given := by
  have hruns : (do
      let s ← (start 2).beginRun? threeJobs
      let t ← s.follow? quietHalfField 42 overtaking
      let t ← t.beginRun? threeJobs
      let u ← t.follow? quietHalfField 42 (overtaking ++ [.close])
      return (u.isOpen, u.totals.events, u.totals.propagatedCharge)) =
        some (false, 4, 24) := by
    decide +kernel
  simp only [Option.bind_eq_bind, Option.bind_eq_some_iff] at hruns
  obtain ⟨s, hs, t, ht, t', ht', u, hu, hcounts⟩ := hruns
  have hstart : Reachable quietHalfField 42 2 (start 2) [] := .start
  have hsecond := (hstart.run hs ht).run ht' hu
  exact ⟨u, _, hsecond, Option.some.inj hcounts,
    accounted_of_reachable hsecond⟩

end PoolState

end CarrierTransport
