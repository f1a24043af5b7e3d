import CarrierTransport.Proofs.Run.Results

/-!
# Results of one event

A run gives its results in the order of their events, and those of one event in
the order in which it has received them.  Two runs of the same jobs therefore
differ at most in the order of the results of one event, and one worker keeps
the order in which the jobs were sent.
-/

namespace CarrierTransport

variable {α : Type}

namespace Pool

/-! ## Results in the order of their events -/

def ofEvent (event : EventId) (results : List (EventResult α)) :
    List (EventResult α) :=
  results.filter (·.event = event)

theorem ofEvent_cons (event : EventId) (result : EventResult α)
    (results : List (EventResult α)) :
    ofEvent event (result :: results) =
      if result.event = event then result :: ofEvent event results
      else ofEvent event results := by
  unfold ofEvent
  rw [List.filter_cons]
  simp only [decide_eq_true_eq]

theorem mem_ofEvent {event : EventId} {result : EventResult α}
    {results : List (EventResult α)} :
    result ∈ ofEvent event results ↔
      result ∈ results ∧ result.event = event := by
  simp [ofEvent]

theorem ofEvent_ofEvent (event : EventId) (results : List (EventResult α)) :
    ofEvent event (ofEvent event results) = ofEvent event results := by
  simp [ofEvent]

/-- The order is stable. -/
theorem ofEvent_inOrder (event : EventId) (results : List (EventResult α)) :
    ofEvent event (inOrder results) = ofEvent event results := by
  have hsorted : (ofEvent event results).Pairwise fun a b =>
      decide (a.event ≤ b.event) = true := by
    refine List.pairwise_of_forall_mem_list fun a ha b hb => ?_
    rw [(mem_ofEvent.mp ha).2, (mem_ofEvent.mp hb).2]
    exact decide_eq_true (UInt64.le_refl event.val)
  have hsublist := List.sublist_mergeSort event_le_trans event_le_total hsorted
    List.filter_sublist
  have hfiltered : (ofEvent event results).Sublist
      (ofEvent event (inOrder results)) := by
    rw [← ofEvent_ofEvent]
    exact hsublist.filter (·.event = event)
  refine (hfiltered.eq_of_length ?_).symm
  exact ((inOrder_perm results).filter _).length_eq.symm

theorem first_le {first second : EventResult α}
    {results more : List (EventResult α)}
    (hsorted : (first :: results).Pairwise fun a b => a.event ≤ b.event)
    (h : ∀ event, ofEvent event (first :: results) =
      ofEvent event (second :: more)) : first.event ≤ second.event := by
  have hmem : second ∈ ofEvent second.event (second :: more) :=
    mem_ofEvent.mpr ⟨List.mem_cons_self, rfl⟩
  rw [← h] at hmem
  obtain rfl | hmem := List.mem_cons.mp (mem_ofEvent.mp hmem).1
  · exact UInt64.le_refl second.event.val
  · exact List.rel_of_pairwise_cons hsorted hmem

theorem ofEvent_ne_nil (first : EventResult α)
    (results : List (EventResult α)) :
    ofEvent first.event (first :: results) ≠ [] := by
  rw [ofEvent_cons, if_pos rfl]
  exact List.cons_ne_nil _ _

/-- Results in the order of their events are known from those of each event. -/
theorem eq_of_ofEvent {results more : List (EventResult α)}
    (hresults : results.Pairwise fun a b => a.event ≤ b.event)
    (hmore : more.Pairwise fun a b => a.event ≤ b.event)
    (h : ∀ event, ofEvent event results = ofEvent event more) :
    results = more := by
  induction results generalizing more with
  | nil =>
      cases more with
      | nil => rfl
      | cons second more =>
          exact absurd (h second.event).symm (ofEvent_ne_nil second more)
  | cons first results ih =>
      cases more with
      | nil => exact absurd (h first.event) (ofEvent_ne_nil first results)
      | cons second more =>
          have hevent : first.event = second.event :=
            EventId.le_antisymm (first_le hresults h)
              (first_le hmore fun event => (h event).symm)
          have hheads := h first.event
          rw [ofEvent_cons, if_pos rfl, ofEvent_cons, if_pos hevent.symm]
            at hheads
          obtain rfl := List.head_eq_of_cons_eq hheads
          refine congrArg (first :: ·)
            (ih hresults.of_cons hmore.of_cons fun event => ?_)
          have htails := h event
          rw [ofEvent_cons, ofEvent_cons] at htails
          split at htails
          · exact List.tail_eq_of_cons_eq htails
          · exact htails

theorem inOrder_eq_iff {results more : List (EventResult α)} :
    inOrder results = inOrder more ↔
      ∀ event, ofEvent event results = ofEvent event more := by
  constructor
  · intro h event
    rw [← ofEvent_inOrder, h, ofEvent_inOrder]
  · intro h
    refine eq_of_ofEvent (pairwise_inOrder results) (pairwise_inOrder more) ?_
    intro event
    rw [ofEvent_inOrder, ofEvent_inOrder, h]

theorem map_event_inOrder {results more : List (EventResult α)}
    (h : results.Perm more) :
    (inOrder results).map EventResult.event =
      (inOrder more).map EventResult.event := by
  have hperm := (inOrder_perm results).trans (h.trans (inOrder_perm more).symm)
  refine (hperm.map EventResult.event).eq_of_pairwise
    (fun a b _ _ => EventId.le_antisymm) ?_ ?_
  · exact List.pairwise_map.mpr (pairwise_inOrder results)
  · exact List.pairwise_map.mpr (pairwise_inOrder more)

end Pool

variable [Scalar α] {p : Propagation α} {seed : UInt64}

theorem Pool.mem_results_answers {jobs : List (Job α)}
    {result : EventResult α} :
    result ∈ results (jobs.map (Job.answer p seed)) ↔
      ∃ job ∈ jobs,
        job.answer p seed = (result.event, some result.output) := by
  simp only [results, List.mem_filterMap, List.mem_map, Option.map_eq_some_iff]
  constructor
  · rintro ⟨-, ⟨job, hjob, rfl⟩, output, houtput, rfl⟩
    exact ⟨job, hjob, Prod.ext rfl houtput⟩
  · rintro ⟨job, hjob, hanswer⟩
    exact ⟨_, ⟨job, hjob, hanswer⟩, result.output, rfl, rfl⟩

namespace PoolState

variable {n k : Nat} {jobs : List (Job α)} {s t u v : PoolState α}

/-! ## One worker -/

/-- The answers that a run has received or is going to receive from a worker who
is alone, in that order. -/
def inLine (p : Propagation α) (seed : UInt64) (s : PoolState α) :
    List (EventAnswer α) :=
  s.received ++ s.answers ++
    s.workers.flatMap (fun phase => (phase.owed p seed).toList) ++
    (s.queue ++ s.unsent).map (Job.answer p seed)

omit [Scalar α] in
theorem eq_of_alone {worker : Nat} {phase : WorkerPhase α}
    (halone : s.workers.length = 1)
    (hworker : s.workers[worker]? = some phase) :
    worker = 0 ∧ s.workers = [phase] := by
  obtain ⟨only, honly⟩ := List.length_eq_one_iff.mp halone
  rw [honly] at hworker ⊢
  cases worker with
  | zero =>
      cases hworker
      exact ⟨rfl, rfl⟩
  | succ worker => cases hworker

theorem inLine_of_moves {move : PoolMove} (halone : s.workers.length = 1)
    (h : s.Moves p seed move t) : t.inLine p seed = s.inLine p seed := by
  cases h with
  | @send job rest hunsent =>
      simp [inLine, hunsent]
  | @take worker job rest hworker hqueue =>
      obtain ⟨rfl, halone⟩ := eq_of_alone halone hworker
      simp [inLine, setWorker, halone, hqueue, WorkerPhase.owed]
  | @carry worker job hworker =>
      obtain ⟨rfl, halone⟩ := eq_of_alone halone hworker
      have howed : (WorkerPhase.carrying job).owed p seed =
          some (job.answer p seed) := rfl
      simp [inLine, setWorker, halone, howed, WorkerPhase.owed_afterEvent]
  | @count worker result counter n left hworker =>
      obtain ⟨rfl, halone⟩ := eq_of_alone halone hworker
      simp [inLine, setWorker, halone, WorkerPhase.owed]
  | @answer worker phase answer hworker hanswer =>
      obtain ⟨rfl, halone⟩ := eq_of_alone halone hworker
      have hidle : (WorkerPhase.idle : WorkerPhase α).owed p seed = none := rfl
      simp [inLine, setWorker, halone, hidle,
        WorkerPhase.owed_of_answer? hanswer]
  | @receive answer rest hunsent hanswers hless =>
      simp [inLine, hanswers]
  | close => rfl
  | leave hworker =>
      obtain ⟨rfl, halone⟩ := eq_of_alone halone hworker
      simp [inLine, setWorker, halone, WorkerPhase.owed]

theorem Sound.nothing_in_line (hs : s.Sound p seed n)
    (hcomplete : s.isComplete = true) :
    s.workers.flatMap (fun phase => (phase.owed p seed).toList) = [] := by
  rw [← List.filterMap_eq_flatMap_toList]
  exact (Multiset.coe_eq_zero _).mp (hs.idle_of_isComplete hcomplete).2.2

theorem inLine_of_beginRun? (hs : s.Sound p seed n)
    (hbegin : s.beginRun? jobs = some t) :
    t.inLine p seed = jobs.map (Job.answer p seed) := by
  obtain ⟨-, hcomplete, rfl⟩ := beginRun?_eq_some.mp hbegin
  obtain ⟨hqueue, hanswers, -⟩ := hs.idle_of_isComplete hcomplete
  simp [inLine, hqueue, hanswers, hs.nothing_in_line hcomplete]

theorem inLine_of_isComplete (hs : s.Sound p seed n)
    (hcomplete : s.isComplete = true) : s.inLine p seed = s.received := by
  obtain ⟨hqueue, hanswers, -⟩ := hs.idle_of_isComplete hcomplete
  have hunsent := (isComplete_iff.mp hcomplete).1
  simp [inLine, hqueue, hanswers, hunsent, hs.nothing_in_line hcomplete]

/-- The end of a run of jobs in a pool of `n` workers, under some schedule and
after any other runs. -/
def EndsRun (p : Propagation α) (seed : UInt64) (n : Nat) (jobs : List (Job α))
    (u : PoolState α) : Prop :=
  ∃ s given t schedule, Reachable p seed n s given ∧
    s.beginRun? jobs = some t ∧ t.follow? p seed schedule = some u ∧
    u.isComplete = true

theorem EndsRun.received_perm (h : EndsRun p seed n jobs u) :
    u.received.Perm (jobs.map (Job.answer p seed)) := by
  obtain ⟨s, given, t, schedule, hs, hbegin, hschedule, hcomplete⟩ := h
  exact received_of_follow? hs.sound hbegin hschedule hcomplete

/-- One worker answers the jobs in turn. -/
theorem EndsRun.received_eq (h : EndsRun p seed 1 jobs u) :
    u.received = jobs.map (Job.answer p seed) := by
  obtain ⟨s, given, t, schedule, hs, hbegin, hschedule, hcomplete⟩ := h
  have hbegun := (due_of_beginRun? hs.sound hbegin).2
  have hkept : u.Sound p seed 1 ∧ u.inLine p seed = t.inLine p seed := by
    refine follow?_invariant (P := fun s => s.Sound p seed 1 ∧
      s.inLine p seed = t.inLine p seed) ?_ hschedule ⟨hbegun, rfl⟩
    intro a b move hmove ha
    exact ⟨ha.1.of_moves hmove, (inLine_of_moves ha.1.workers hmove).trans ha.2⟩
  rw [← inLine_of_isComplete hkept.1 hcomplete, hkept.2,
    inLine_of_beginRun? hs.sound hbegin]

/-! ## Two runs -/

theorem EndsRun.results_perm (hu : EndsRun p seed n jobs u)
    (hv : EndsRun p seed k jobs v) :
    (Pool.results u.received).Perm (Pool.results v.received) :=
  (hu.received_perm.trans hv.received_perm.symm).filterMap _

theorem EndsRun.exists_job (h : EndsRun p seed n jobs u) {event : EventId}
    {result : EventResult α}
    (hresult : result ∈ Pool.ofEvent event (Pool.results u.received)) :
    ∃ job ∈ jobs, job.event = event ∧ result.event = event ∧
      (job.answer p seed).2 = some result.output := by
  obtain ⟨hmem, hevent⟩ := Pool.mem_ofEvent.mp hresult
  obtain ⟨job, hjob, hanswer⟩ := Pool.mem_results_answers.mp
    ((h.received_perm.filterMap _).mem_iff.mp hmem)
  have hjobEvent : job.event = result.event := congrArg Prod.fst hanswer
  exact ⟨job, hjob, hjobEvent.trans hevent, hevent, congrArg Prod.snd hanswer⟩

/-- Where the jobs of one event are alike, so are their results. -/
theorem EndsRun.ofEvent_eq (hu : EndsRun p seed n jobs u)
    (hv : EndsRun p seed k jobs v)
    (hsame : ∀ a ∈ jobs, ∀ b ∈ jobs, a.event = b.event →
      a.deposits = b.deposits) (event : EventId) :
    Pool.ofEvent event (Pool.results u.received) =
      Pool.ofEvent event (Pool.results v.received) := by
  refine ((hu.results_perm hv).filter _).eq_of_pairwise ?_
    (List.pairwise_of_forall_mem_list fun _ _ _ _ => trivial)
    (List.pairwise_of_forall_mem_list fun _ _ _ _ => trivial)
  intro a b ha hb _ _
  obtain ⟨⟨event₁, deposits₁⟩, hfirst, rfl, hevent₁, houtput₁⟩ :=
    hu.exists_job ha
  obtain ⟨⟨event₂, deposits₂⟩, hsecond, rfl, hevent₂, houtput₂⟩ :=
    hv.exists_job hb
  obtain rfl : deposits₁ = deposits₂ := hsame _ hfirst _ hsecond rfl
  obtain ⟨eventOfA, outputOfA⟩ := a
  obtain ⟨eventOfB, outputOfB⟩ := b
  cases hevent₁
  cases hevent₂
  cases houtput₁.symm.trans houtput₂
  rfl

/-- Two runs of the same jobs have results for the same events.  They have the
same results just if those of each event were received in the same order, which
is so if the jobs of one event are alike. -/
theorem results_agree_but_for_ties (hu : EndsRun p seed n jobs u)
    (hv : EndsRun p seed k jobs v) :
    u.results.map EventResult.event = v.results.map EventResult.event ∧
    u.results.Perm v.results ∧
    (∀ event, Pool.ofEvent event u.results =
      Pool.ofEvent event (Pool.results u.received)) ∧
    (u.results = v.results ↔ ∀ event,
      Pool.ofEvent event (Pool.results u.received) =
        Pool.ofEvent event (Pool.results v.received)) ∧
    ((∀ a ∈ jobs, ∀ b ∈ jobs, a.event = b.event → a.deposits = b.deposits) →
      u.results = v.results) ∧
    (n = 1 → u.results =
      Pool.inOrder (Pool.results (jobs.map (Job.answer p seed)))) := by
  have hperm := hu.results_perm hv
  refine ⟨Pool.map_event_inOrder hperm, ?_, ?_, Pool.inOrder_eq_iff, ?_, ?_⟩
  · exact (Pool.inOrder_perm _).trans (hperm.trans (Pool.inOrder_perm _).symm)
  · exact fun event => Pool.ofEvent_inOrder event _
  · exact fun hsame => Pool.inOrder_eq_iff.mpr (hu.ofEvent_eq hv hsame)
  · rintro rfl
    rw [results, hu.received_eq]

/-- Two jobs of one event, of which only the first has a deposit. -/
def twiceSeven : List (Job Double) :=
  [⟨⟨7⟩, [.electrons .zero 5]⟩, ⟨⟨7⟩, []⟩]

/-- What a worker does with its job until the run has the answer. -/
def wholeJob (worker : Nat) : List PoolMove :=
  .carry worker :: List.replicate 10 (.count worker) ++
    [.answer worker, .receive]

/-- Two workers with one job each, of whom one answers first. -/
def answeredFirst (first second : Nat) : List PoolMove :=
  [.send, .send, .take 0, .take 1] ++ wholeJob first ++ wholeJob second

/-- How many charges the results of an event have brought. -/
def chargesOf (event : EventId) (results : List (EventResult Double)) :
    List Nat :=
  (Pool.ofEvent event results).map (·.output.charges.size)

theorem exists_run_of_twiceSeven (schedule : List PoolMove) (sizes : List Nat)
    (h : (follow? .thinPropagation 42 { start 2 with unsent := twiceSeven }
      schedule).map (fun u =>
        (u.isComplete, chargesOf ⟨7⟩ (Pool.results u.received))) =
      some (true, sizes)) :
    ∃ u : PoolState Double, EndsRun .thinPropagation 42 2 twiceSeven u ∧
      chargesOf ⟨7⟩ u.results = sizes := by
  obtain ⟨u, hschedule, hu⟩ := Option.map_eq_some_iff.mp h
  obtain ⟨hcomplete, hsizes⟩ := Prod.mk.inj hu
  refine ⟨u, ⟨_, _, _, schedule, .start, rfl, hschedule, hcomplete⟩, ?_⟩
  rw [chargesOf, results, Pool.ofEvent_inOrder]
  exact hsizes

theorem exists_runs_of_twiceSeven :
    ∃ u v : PoolState Double, EndsRun .thinPropagation 42 2 twiceSeven u ∧
      EndsRun .thinPropagation 42 2 twiceSeven v ∧
      chargesOf ⟨7⟩ u.results = [1, 0] ∧ chargesOf ⟨7⟩ v.results = [0, 1] := by
  obtain ⟨u, hu, hcharges⟩ :=
    exists_run_of_twiceSeven (answeredFirst 0 1) [1, 0] (by decide +kernel)
  obtain ⟨v, hv, hothers⟩ :=
    exists_run_of_twiceSeven (answeredFirst 1 0) [0, 1] (by decide +kernel)
  exact ⟨u, v, hu, hv, hcharges, hothers⟩

theorem results_agree_but_for_ties_twiceSeven :
    ∃ u v : PoolState Double, EndsRun .thinPropagation 42 2 twiceSeven u ∧
      EndsRun .thinPropagation 42 2 twiceSeven v ∧
      u.results.map EventResult.event = v.results.map EventResult.event ∧
      u.results.Perm v.results := by
  obtain ⟨u, v, hu, hv, -⟩ := exists_runs_of_twiceSeven
  obtain ⟨hevents, hperm, -⟩ := results_agree_but_for_ties hu hv
  exact ⟨u, v, hu, hv, hevents, hperm⟩

/-- The order in which the events end shows where an event occurs twice. -/
theorem results_of_one_event_differ :
    ∃ u v : PoolState Double, EndsRun .thinPropagation 42 2 twiceSeven u ∧
      EndsRun .thinPropagation 42 2 twiceSeven v ∧ u.results ≠ v.results := by
  obtain ⟨u, v, hu, hv, hcharges, hothers⟩ := exists_runs_of_twiceSeven
  refine ⟨u, v, hu, hv, fun hsame => ?_⟩
  rw [hsame, hothers] at hcharges
  cases hcharges

end PoolState

end CarrierTransport
