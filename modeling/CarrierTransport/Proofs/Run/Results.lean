import CarrierTransport.Proofs.Run.Ledger
import CarrierTransport.Proofs.Run.Schedule

/-!
# The results of a run

However a run is scheduled, its results are those of its jobs that do not fail,
in the order of their events.  When no event occurs twice they are the results
of the jobs one after the other.
-/

namespace CarrierTransport

variable {α : Type} [Scalar α]

theorem EventId.le_trans {a b c : EventId} (hab : a ≤ b) (hbc : b ≤ c) :
    a ≤ c :=
  UInt64.le_trans hab hbc

theorem EventId.le_total (a b : EventId) : a ≤ b ∨ b ≤ a :=
  UInt64.le_total a.val b.val

theorem EventId.le_antisymm {a b : EventId} (hab : a ≤ b) (hba : b ≤ a) :
    a = b := by
  obtain ⟨a⟩ := a
  obtain ⟨b⟩ := b
  exact congrArg EventId.mk (UInt64.le_antisymm hab hba)

/-- The result of a job, if it does not fail, whichever totals it adds to. -/
def Job.result? (p : Propagation α) (seed : UInt64) (totals : RunTotals)
    (threshold : Option Level) (job : Job α) : Option (EventResult α) :=
  match ((p.runEvent ampleSteps job.deposits (eventSource seed job.event)
      totals).runFrom threshold).1 with
  | .ok (output, _, _) => some ⟨job.event, output⟩
  | .error _ => none

def carryInTurn (p : Propagation α) (seed : UInt64) :
    List (Job α) → RunTotals → List (EventResult α) × RunTotals
  | [], totals => ([], totals)
  | job :: jobs, totals =>
      match ((p.runEvent ampleSteps job.deposits (eventSource seed job.event)
          totals).runFrom none).1 with
      | .ok (output, _, totals) =>
          let (results, totals) := carryInTurn p seed jobs totals
          (⟨job.event, output⟩ :: results, totals)
      | .error _ => carryInTurn p seed jobs totals

namespace Job

variable (p : Propagation α) (seed : UInt64)

theorem answer_eq (job : Job α) :
    job.answer p seed = (job.event,
      (p.carryEvent ampleSteps job.deposits
        (eventSource seed job.event)).result.toOption.map (·.output)) :=
  rfl

theorem result?_eq (totals : RunTotals) (threshold : Option Level)
    (job : Job α) :
    job.result? p seed totals threshold =
      (job.answer p seed).2.map (⟨job.event, ·⟩) := by
  unfold result?
  rw [(p.runEvent_gives ampleSteps job.deposits (eventSource seed job.event)
    totals).runFrom threshold, answer_eq]
  cases (p.carryEvent ampleSteps job.deposits
    (eventSource seed job.event)).result <;> rfl

end Job

namespace Pool

variable {p : Propagation α} {seed : UInt64}

theorem results_map_answer (totals : RunTotals) (threshold : Option Level)
    (jobs : List (Job α)) :
    results (jobs.map (Job.answer p seed)) =
      jobs.filterMap (Job.result? p seed totals threshold) := by
  unfold results
  rw [List.filterMap_map]
  refine List.filterMap_congr fun job _ => ?_
  rw [Job.result?_eq]
  rfl

theorem events_sublist (p : Propagation α) (seed : UInt64)
    (jobs : List (Job α)) :
    ((results (jobs.map (Job.answer p seed))).map
      EventResult.event).Sublist (jobs.map Job.event) := by
  induction jobs with
  | nil => exact .slnil
  | cons job jobs ih =>
      unfold results at ih ⊢
      rw [List.map_cons, List.map_cons, List.filterMap_cons]
      cases houtput : (job.answer p seed).2 with
      | none =>
          simp only [houtput, Option.map_none]
          exact ih.cons job.event
      | some output =>
          simp only [houtput, Option.map_some, List.map_cons]
          exact ih.cons_cons job.event

theorem carryInTurn_fst (jobs : List (Job α)) (totals : RunTotals) :
    (carryInTurn p seed jobs totals).1 =
      results (jobs.map (Job.answer p seed)) := by
  induction jobs generalizing totals with
  | nil => rfl
  | cons job jobs ih =>
      have hresult := Job.result?_eq p seed totals none job
      rw [results_map_answer totals none, List.filterMap_cons,
        ← results_map_answer totals none]
      unfold carryInTurn Job.result?
      cases ((p.runEvent ampleSteps job.deposits (eventSource seed job.event)
          totals).runFrom none).1 with
      | error fault => exact ih totals
      | ok event => exact congrArg (_ :: ·) (ih event.2.2)

omit [Scalar α] in
theorem event_le_trans (a b c : EventResult α)
    (hab : decide (a.event ≤ b.event) = true)
    (hbc : decide (b.event ≤ c.event) = true) :
    decide (a.event ≤ c.event) = true :=
  decide_eq_true (EventId.le_trans (of_decide_eq_true hab)
    (of_decide_eq_true hbc))

omit [Scalar α] in
theorem event_le_total (a b : EventResult α) :
    (decide (a.event ≤ b.event) || decide (b.event ≤ a.event)) = true := by
  simpa using EventId.le_total a.event b.event

omit [Scalar α] in
theorem pairwise_inOrder (results : List (EventResult α)) :
    (inOrder results).Pairwise fun a b => a.event ≤ b.event := by
  refine (List.pairwise_mergeSort event_le_trans event_le_total results).imp ?_
  exact of_decide_eq_true

omit [Scalar α] in
theorem inOrder_perm (results : List (EventResult α)) :
    (inOrder results).Perm results :=
  List.mergeSort_perm results _

omit [Scalar α] in
/-- With one result for each event there is only one order. -/
theorem eq_of_perm_of_nodup {results more : List (EventResult α)}
    (hperm : results.Perm more) (hnodup : (more.map EventResult.event).Nodup)
    (hresults : results.Pairwise fun a b => a.event ≤ b.event)
    (hmore : more.Pairwise fun a b => a.event ≤ b.event) : results = more := by
  refine hperm.eq_of_pairwise (fun a b ha hb hab hba => ?_) hresults hmore
  exact List.inj_on_of_nodup_map hnodup (hperm.mem_iff.mp ha) hb
    (EventId.le_antisymm hab hba)

omit [Scalar α] in
theorem begin_perm (ending : Nat) (answer : EventAnswer α)
    (underWay : UnderWay α) :
    (begin ending answer underWay).Perm ((ending, answer) :: underWay) := by
  induction underWay with
  | nil => rfl
  | cons first others ih =>
      unfold begin
      split
      · exact (ih.cons first).trans (.swap _ _ others)
      · rfl

omit [Scalar α] in
theorem answersInTurn_perm (underWay : UnderWay α)
    (waiting : List (EventAnswer α)) :
    (answersInTurn underWay waiting).Perm
      (underWay.map (·.2) ++ waiting) := by
  induction waiting generalizing underWay with
  | nil =>
      rw [answersInTurn, List.append_nil]
  | cons next waiting ih =>
      cases underWay with
      | nil => rfl
      | cons first underWay =>
          obtain ⟨time, answer⟩ := first
          have hbegin := (begin_perm (time + duration next) next underWay).map
            Prod.snd
          have hrest := (ih _).trans (hbegin.append_right waiting)
          rw [answersInTurn, List.map_cons, List.cons_append]
          exact (hrest.trans List.perm_middle.symm).cons answer

omit [Scalar α] in
/-- Every job is answered once. -/
theorem inEndingOrder_perm (workers : Nat) (answers : List (EventAnswer α)) :
    (inEndingOrder workers answers).Perm answers := by
  have hbegun (first : List (EventAnswer α)) (underWay : UnderWay α) :
      ((first.foldl (fun underWay answer =>
        begin (duration answer) answer underWay) underWay).map (·.2)).Perm
        (underWay.map (·.2) ++ first) := by
    induction first generalizing underWay with
    | nil => rw [List.foldl_nil, List.append_nil]
    | cons answer first ih =>
        have hbegin := (begin_perm (duration answer) answer underWay).map
          Prod.snd
        exact (ih _).trans ((hbegin.append_right first).trans
          List.perm_middle.symm)
  have hall := (answersInTurn_perm _ (answers.drop workers)).trans
    ((hbegun (answers.take workers) []).append_right _)
  rwa [List.map_nil, List.nil_append, List.take_append_drop] at hall

theorem run_gives {ε : Type} (pool : Pool α) (jobs : List (Job α)) :
    (pool.run jobs : Logged α ε _).Gives
      (.ok (inOrder (results (inEndingOrder pool.workers
          (jobs.map (Job.answer pool.propagation pool.seed)))),
        { pool with
          totals := tally pool.totals (results (inEndingOrder pool.workers
            (jobs.map (Job.answer pool.propagation pool.seed)))) })) :=
  (Logged.Gives.forM_log _).after (.pure _)

end Pool

/-- These are the results of a run: one for each job that does not fail, in the
order of the events, and if no event occurs twice those of a run in turn. -/
structure IsResultOf (p : Propagation α) (seed : UInt64) (jobs : List (Job α))
    (results : List (EventResult α)) : Prop where
  sorted : results.Pairwise fun a b => a.event ≤ b.event
  perm : ∀ totals threshold,
    results.Perm (jobs.filterMap (Job.result? p seed totals threshold))
  inTurn : (jobs.map Job.event).Nodup → ∀ ordered totals, ordered.Perm jobs →
    ordered.Pairwise (fun a b => a.event ≤ b.event) →
    results = (carryInTurn p seed ordered totals).1
  run : (jobs.map Job.event).Nodup → ∀ pool : Pool α, pool.propagation = p →
    pool.seed = seed →
    (pool.run jobs : Logged α Fault _).result.map Prod.fst = .ok results

namespace PoolState

variable {p : Propagation α} {seed : UInt64}

theorem isResultOf_of_received {s : PoolState α} {jobs : List (Job α)}
    (h : s.received.Perm (jobs.map (Job.answer p seed))) :
    IsResultOf p seed jobs s.results := by
  have hsorted := Pool.pairwise_inOrder (Pool.results s.received)
  have hperm : s.results.Perm
      (Pool.results (jobs.map (Job.answer p seed))) :=
    (Pool.inOrder_perm _).trans (h.filterMap _)
  constructor
  · exact hsorted
  · intro totals threshold
    rw [← Pool.results_map_answer]
    exact hperm
  · intro hnodup ordered totals hordered hpairwise
    have hevents : (ordered.map Job.event).Nodup :=
      (hordered.map Job.event).nodup_iff.mpr hnodup
    have hsublist := Pool.events_sublist p seed ordered
    have hinTurn : (Pool.results
        (ordered.map (Job.answer p seed))).Pairwise fun a b =>
          a.event ≤ b.event :=
      List.pairwise_map.mp ((List.pairwise_map.mpr hpairwise).sublist hsublist)
    have hsame : (Pool.results (ordered.map (Job.answer p seed))).Perm
        (Pool.results (jobs.map (Job.answer p seed))) :=
      (hordered.map _).filterMap _
    rw [Pool.carryInTurn_fst]
    exact Pool.eq_of_perm_of_nodup (hperm.trans hsame.symm)
      (hevents.sublist hsublist) hsorted hinTurn
  · intro hnodup pool hp hseed
    have hevents := hnodup.sublist (Pool.events_sublist p seed jobs)
    have hrun := (Pool.run_gives (ε := Fault) pool jobs).result_eq
    rw [hp, hseed] at hrun
    rw [hrun]
    have hrunPerm := (Pool.inOrder_perm (Pool.results (Pool.inEndingOrder
      pool.workers (jobs.map (Job.answer p seed))))).trans
      ((Pool.inEndingOrder_perm pool.workers _).filterMap _)
    refine congrArg Except.ok (Eq.symm ?_)
    exact Pool.eq_of_perm_of_nodup (hperm.trans hrunPerm.symm)
      ((hrunPerm.map _).nodup_iff.mpr hevents) hsorted
      (Pool.pairwise_inOrder _)

/-- Under every schedule a run of a pool ends, and its results are those of its
jobs whatever the schedule and the number of workers. -/
theorem results_of_every_schedule {n : Nat} {s t u : PoolState α}
    {given : List (EventResult α)} {jobs : List (Job α)}
    {schedule : List PoolMove} (hn : 0 < n)
    (hs : Reachable p seed n s given) (hbegin : s.beginRun? jobs = some t)
    (hschedule : t.follow? p seed schedule = some u) :
    schedule.length ≤ t.movesLeft ∧
      (u.isComplete = false → ∃ move v, u.move? p seed move = some v) ∧
      (u.isComplete = true → IsResultOf p seed jobs u.results) := by
  obtain ⟨hdue, hsound⟩ := due_of_beginRun? hs.sound hbegin
  have hkept : u.Sound p seed n ∧
      u.due p seed = jobs.map (Job.answer p seed) := by
    refine follow?_invariant (P := fun s => s.Sound p seed n ∧
      s.due p seed = jobs.map (Job.answer p seed)) ?_ hschedule ⟨hsound, hdue⟩
    intro a b move hmove ha
    exact ⟨ha.1.of_moves hmove, (due_of_moves hmove).trans ha.2⟩
  refine ⟨?_, ?_, ?_⟩
  · have hbound := length_add_movesLeft_le hschedule
    omega
  · intro hmore
    obtain ⟨move, v, hmove⟩ := hkept.1.exists_move hn hmore
    exact ⟨move, v, move?_of_moves hmove⟩
  · intro hcomplete
    obtain ⟨hqueue, hanswers, howed⟩ := hkept.1.idle_of_isComplete hcomplete
    have hreceived := hkept.2
    unfold due at hreceived
    rw [hqueue, hanswers, howed, (isComplete_iff.mp hcomplete).1] at hreceived
    simp only [List.map_nil, Multiset.coe_nil, add_zero] at hreceived
    exact isResultOf_of_received (Multiset.coe_eq_coe.mp hreceived)

/-- The thin layer with a field that has no answer beyond one side. -/
def halfField : Propagation Double :=
  { Propagation.thinPropagation with
    field :=
      { Transport.thinLayer.field with
        electric := fun position =>
          if position.x < 0.5 then Transport.thinLayer.field.electric position
          else .error .noField } }

/-- Three events, of which the second fails. -/
def threeJobs : List (Job Double) :=
  [⟨⟨1⟩, [.electrons .zero 5]⟩, ⟨⟨3⟩, [.electrons ⟨0.75, 0.0, 0.0⟩ 5]⟩,
    ⟨⟨0⟩, [.electrons .zero 7]⟩]

/-- Two workers, of which the second carries the last two events and overtakes
the first. -/
def overtaking : List PoolMove :=
  [.send, .take 0, .send, .send, .take 1, .carry 1, .answer 1, .take 1,
    .carry 1, .carry 0, .count 0] ++
  List.replicate 10 (.count 1) ++ [.answer 1, .receive] ++
  List.replicate 9 (.count 0) ++ [.answer 0, .receive, .receive]

theorem results_of_overtaking :
    ∃ t u : PoolState Double, (start 2).beginRun? threeJobs = some t ∧
      t.follow? halfField 42 overtaking = some u ∧ u.isComplete = true ∧
      overtaking.length ≤ t.movesLeft ∧
      IsResultOf halfField 42 threeJobs u.results := by
  have hbegin : (start 2).beginRun? threeJobs =
      some { start 2 with unsent := threeJobs } := rfl
  have hruns : (follow? halfField 42 { start 2 with unsent := threeJobs }
      overtaking).map isComplete = some true := by
    decide +kernel
  obtain ⟨u, hschedule, hcomplete⟩ := Option.map_eq_some_iff.mp hruns
  obtain ⟨hlength, -, hresults⟩ :=
    results_of_every_schedule (by decide) .start hbegin hschedule
  exact ⟨_, u, hbegin, hschedule, hcomplete, hlength, hresults hcomplete⟩

end PoolState

end CarrierTransport
