import CarrierTransport.Proofs.Run.Ties

/-!
# The run of a pool as a schedule

A run by the clock, in which a worker takes the next job as soon as it is free,
is a run under one of the schedules: the workers carry the events that are under
way, and the queue holds the jobs that wait.
-/

namespace CarrierTransport

variable {α : Type} [Scalar α] {p : Propagation α} {seed : UInt64}

namespace PoolState

variable {s t u : PoolState α}

/-! ## Schedules that lead from one state to another -/

/-- A schedule leads from one state to the other. -/
def Leads (p : Propagation α) (seed : UInt64) (s t : PoolState α) : Prop :=
  ∃ schedule, s.follow? p seed schedule = some t

namespace Leads

theorem refl (s : PoolState α) : Leads p seed s s := ⟨[], rfl⟩

theorem trans (h : Leads p seed s t) (h' : Leads p seed t u) :
    Leads p seed s u := by
  obtain ⟨first, hfirst⟩ := h
  obtain ⟨second, hsecond⟩ := h'
  refine ⟨first ++ second, ?_⟩
  unfold follow? at hfirst hsecond ⊢
  rw [List.foldlM_append, hfirst]
  exact hsecond

theorem of_moves {move : PoolMove} (h : s.Moves p seed move t) :
    Leads p seed s t := by
  refine ⟨[move], ?_⟩
  unfold follow?
  rw [List.foldlM_cons, move?_of_moves h]
  rfl

theorem cons {move : PoolMove} (h : s.Moves p seed move t)
    (h' : Leads p seed t u) : Leads p seed s u :=
  (of_moves h).trans h'

end Leads

omit [Scalar α] in
theorem getElem?_setWorker {worker : Nat} {before : WorkerPhase α}
    (h : s.workers[worker]? = some before) (phase : WorkerPhase α) :
    (s.setWorker worker phase).workers[worker]? = some phase := by
  obtain ⟨hlt, -⟩ := List.getElem?_eq_some_iff.mp h
  exact List.getElem?_set_self hlt

omit [Scalar α] in
theorem setWorker_setWorker (worker : Nat) (phase next : WorkerPhase α) :
    (s.setWorker worker phase).setWorker worker next =
      s.setWorker worker next := by
  rw [setWorker, setWorker, List.set_set, setWorker]

omit [Scalar α] in
theorem setWorker_self {worker : Nat} {phase : WorkerPhase α}
    (h : s.workers[worker]? = some phase) : s.setWorker worker phase = s := by
  obtain ⟨hlt, rfl⟩ := List.getElem?_eq_some_iff.mp h
  rw [setWorker, List.set_getElem_self]

def withTotals (s : PoolState α) (totals : RunTotals) : PoolState α :=
  { s with totals := totals }

omit [Scalar α] in
theorem withTotals_setWorker (worker : Nat) (phase : WorkerPhase α)
    (totals : RunTotals) : (s.setWorker worker phase).withTotals totals =
      (s.withTotals totals).setWorker worker phase :=
  rfl

/-! ## One job -/

theorem leads_counted (p : Propagation α) (seed : UInt64) {worker : Nat}
    {result : EventResult α} {left : List (Counter × UInt64)}
    (hworker : s.workers[worker]? = some (.counting result left)) :
    ∃ totals, Leads p seed s
      ((s.withTotals totals).setWorker worker (.counting result [])) := by
  induction left generalizing s with
  | nil =>
      refine ⟨s.totals, ?_⟩
      rw [setWorker_self (s := s.withTotals s.totals) hworker]
      exact .refl s
  | cons addition left ih =>
      obtain ⟨counter, amount⟩ := addition
      have hcount : Moves p seed s _ _ := .count hworker
      obtain ⟨totals, hleads⟩ := ih
        (getElem?_setWorker (s := s.withTotals (s.totals.add counter amount))
          hworker (.counting result left))
      rw [withTotals_setWorker, setWorker_setWorker] at hleads
      exact ⟨totals, .cons hcount hleads⟩

/-- A worker comes to the end of its event. -/
theorem leads_ended (p : Propagation α) (seed : UInt64) {worker : Nat}
    {job : Job α}
    (hworker : s.workers[worker]? = some (.carrying job)) :
    ∃ totals phase, phase.answer? = some (job.answer p seed) ∧
      Leads p seed s ((s.withTotals totals).setWorker worker phase) := by
  have hcarry : Moves p seed s _ _ := .carry hworker
  have hafter := getElem?_setWorker hworker (.afterEvent (job.answer p seed))
  generalize job.answer p seed = answer at hcarry hafter ⊢
  obtain ⟨event, output⟩ := answer
  cases output with
  | none => exact ⟨s.totals, .failed event, rfl, .of_moves hcarry⟩
  | some output =>
      obtain ⟨totals, hleads⟩ := leads_counted p seed hafter
      rw [withTotals_setWorker, setWorker_setWorker] at hleads
      exact ⟨totals, .counting ⟨event, output⟩ [], rfl, .cons hcarry hleads⟩

/-- The run receives the answer of a worker that carries a job, when no other is
left. -/
theorem leads_received (p : Propagation α) (seed : UInt64) {worker : Nat}
    {job : Job α}
    (hworker : s.workers[worker]? = some (.carrying job))
    (hunsent : s.unsent = []) (hanswers : s.answers = [])
    (hless : s.received.length < s.sent) :
    ∃ totals, Leads p seed s
      ({ s with
        totals := totals
        received := s.received ++ [job.answer p seed] }.setWorker worker
          .idle) := by
  obtain ⟨totals, phase, hanswer, hleads⟩ := leads_ended p seed hworker
  have hanswered : Moves p seed _ _ _ := .answer (getElem?_setWorker
    (s := s.withTotals totals) hworker phase) hanswer
  have hfirst : s.answers ++ [job.answer p seed] =
      job.answer p seed :: s.answers := by
    rw [hanswers, List.nil_append]
  have hreceived : Moves p seed
      ({ (s.withTotals totals).setWorker worker phase with
        answers := s.answers ++ [job.answer p seed] }.setWorker worker .idle)
      _ _ :=
    .receive hunsent hfirst hless
  have hboth := hleads.trans (.cons hanswered (.of_moves hreceived))
  simp only [setWorker, withTotals, List.set_set] at hboth
  exact ⟨totals, hboth⟩

/-! ## Events under way -/

/-- The events that are under way in a run that has sent all its jobs, each with
its worker and the time of its end. -/
structure Carries (p : Propagation α) (seed : UInt64) (s : PoolState α)
    (carried : List (Nat × Nat × EventAnswer α)) : Prop where
  unsent : s.unsent = []
  answers : s.answers = []
  sent : s.sent = s.received.length + (carried.length + s.queue.length)
  nodup : (carried.map Prod.fst).Nodup
  carrying : ∀ event ∈ carried, ∃ job,
    s.workers[event.1]? = some (.carrying job) ∧
      job.answer p seed = event.2.2

omit [Scalar α] in
theorem exists_begin (worker ending : Nat) (answer : EventAnswer α)
    (carried : List (Nat × Nat × EventAnswer α)) :
    ∃ after : List (Nat × Nat × EventAnswer α),
      after.Perm ((worker, ending, answer) :: carried) ∧
      after.map Prod.snd = Pool.begin ending answer (carried.map Prod.snd) := by
  induction carried with
  | nil => exact ⟨_, .refl _, rfl⟩
  | cons first carried ih =>
      rw [List.map_cons, Pool.begin]
      split
      · obtain ⟨after, hperm, hafter⟩ := ih
        exact ⟨first :: after, (hperm.cons first).trans (.swap _ _ carried),
          congrArg (first.2 :: ·) hafter⟩
      · exact ⟨_, .refl _, rfl⟩

variable {carried : List (Nat × Nat × EventAnswer α)} {worker : Nat}

theorem Carries.begin {job : Job α} {rest : List (Job α)}
    (hs : Carries p seed s carried) (hidle : s.workers[worker]? = some .idle)
    (hqueue : s.queue = job :: rest) (ending : Nat) :
    ∃ after, Carries p seed
        ({ s with queue := rest }.setWorker worker (.carrying job)) after ∧
      after.length = carried.length + 1 ∧ after.map Prod.snd =
        Pool.begin ending (job.answer p seed) (carried.map Prod.snd) := by
  obtain ⟨after, hperm, hafter⟩ :=
    exists_begin worker ending (job.answer p seed) carried
  have hfree : worker ∉ carried.map Prod.fst := by
    intro hmem
    obtain ⟨event, hevent, rfl⟩ := List.mem_map.mp hmem
    obtain ⟨other, hother, -⟩ := hs.carrying event hevent
    cases hidle.symm.trans hother
  have hlength : after.length = carried.length + 1 := hperm.length_eq
  refine ⟨after, ⟨hs.unsent, hs.answers, ?_, ?_, ?_⟩, hlength, hafter⟩
  · have hsent := hs.sent
    rw [hqueue, List.length_cons] at hsent
    change s.sent = s.received.length + (after.length + rest.length)
    omega
  · exact (hperm.map Prod.fst).nodup_iff.mpr (List.nodup_cons.mpr
      ⟨hfree, hs.nodup⟩)
  · intro event hevent
    obtain rfl | hevent := List.mem_cons.mp (hperm.mem_iff.mp hevent)
    · exact ⟨job, getElem?_setWorker (s := { s with queue := rest }) hidle _,
        rfl⟩
    · obtain ⟨other, hother, hanswer⟩ := hs.carrying event hevent
      have hmem := List.mem_map_of_mem (f := Prod.fst) hevent
      have hne : worker ≠ event.1 := fun heq => hfree (heq ▸ hmem)
      exact ⟨other, (List.getElem?_set_ne hne).trans hother, hanswer⟩

/-- The first event that ends is answered and received. -/
theorem Carries.receive {time : Nat} {answer : EventAnswer α}
    (hs : Carries p seed s ((worker, time, answer) :: carried)) :
    ∃ t, Leads p seed s t ∧ Carries p seed t carried ∧
      t.workers[worker]? = some .idle ∧ t.queue = s.queue ∧
      t.received = s.received ++ [answer] := by
  obtain ⟨job, hworker, rfl⟩ := hs.carrying _ List.mem_cons_self
  obtain ⟨hfree, hnodup⟩ := List.nodup_cons.mp hs.nodup
  have hsent := hs.sent
  rw [List.length_cons] at hsent
  obtain ⟨totals, hleads⟩ := leads_received p seed hworker hs.unsent hs.answers
    (by omega)
  refine ⟨_, hleads, ⟨hs.unsent, hs.answers, ?_, hnodup, ?_⟩,
    getElem?_setWorker (s := s) hworker .idle, rfl, rfl⟩
  · change s.sent = (s.received ++ [job.answer p seed]).length +
      (carried.length + s.queue.length)
    rw [List.length_append, List.length_singleton]
    omega
  · intro event hevent
    obtain ⟨other, hother, hanswer⟩ :=
      hs.carrying event (List.mem_cons_of_mem _ hevent)
    have hmem := List.mem_map_of_mem (f := Prod.fst) hevent
    have hne : worker ≠ event.1 := fun heq => hfree (heq ▸ hmem)
    exact ⟨other, (List.getElem?_set_ne hne).trans hother, hanswer⟩

/-- With every job sent the run goes on by the clock to its end. -/
theorem Carries.leads_complete (hs : Carries p seed s carried)
    (hbusy : carried = [] → s.queue = []) :
    ∃ t, Leads p seed s t ∧ t.isComplete = true ∧ t.received = s.received ++
      Pool.answersInTurn (carried.map Prod.snd)
        (s.queue.map (Job.answer p seed)) := by
  generalize hjobs : carried.length + s.queue.length = jobs
  induction jobs generalizing s carried with
  | zero =>
      obtain ⟨hcarried, hqueue⟩ := Nat.add_eq_zero_iff.mp hjobs
      obtain rfl := List.eq_nil_of_length_eq_zero hcarried
      have hsent := hs.sent
      rw [hjobs] at hsent
      refine ⟨s, .refl s, isComplete_iff.mpr ⟨hs.unsent, hsent.symm⟩, ?_⟩
      rw [List.eq_nil_of_length_eq_zero hqueue]
      exact (List.append_nil _).symm
  | succ jobs ih =>
      cases carried with
      | nil =>
          rw [hbusy rfl] at hjobs
          cases hjobs
      | cons first carried =>
          obtain ⟨worker, time, answer⟩ := first
          obtain ⟨t, hleads, ht, hidle, hqueue, hreceived⟩ := hs.receive
          rw [List.length_cons] at hjobs
          cases hwaiting : s.queue with
          | nil =>
              rw [hwaiting] at hqueue hjobs
              obtain ⟨u, hrest, hcomplete, hanswers⟩ := ih ht
                (fun _ => hqueue) (by rw [hqueue]; omega)
              refine ⟨u, hleads.trans hrest, hcomplete, ?_⟩
              rw [hanswers, hreceived, hqueue, List.append_assoc]
              simp [Pool.answersInTurn]
          | cons job waiting =>
              rw [hwaiting] at hqueue hjobs
              rw [List.length_cons] at hjobs
              obtain ⟨after, hafter, hlength, hends⟩ := ht.begin hidle hqueue
                (time + Pool.duration (job.answer p seed))
              have htake : Moves p seed t _ _ := .take hidle hqueue
              have hnext : after.length + waiting.length = jobs := by omega
              obtain ⟨u, hrest, hcomplete, hanswers⟩ := ih hafter
                (fun hnone => by rw [hnone] at hlength; cases hlength) hnext
              refine ⟨u, hleads.trans (.cons htake hrest), hcomplete, ?_⟩
              rw [hanswers, hends]
              change t.received ++ _ = _
              rw [hreceived, List.append_assoc]
              rfl

/-! ## The beginning of a run -/

theorem leads_sent (p : Propagation α) (seed : UInt64) (s : PoolState α) :
    Leads p seed s { s with
      unsent := []
      queue := s.queue ++ s.unsent
      sent := s.sent + s.unsent.length } := by
  generalize hjobs : s.unsent = jobs
  induction jobs generalizing s with
  | nil =>
      have hsame : { s with unsent := [] } = s := by rw [← hjobs]
      rw [List.append_nil, List.length_nil, Nat.add_zero, hsame]
      exact .refl s
  | cons job jobs ih =>
      have hsend : Moves p seed s _ _ := .send hjobs
      have hleads := ih { s with
        unsent := jobs
        queue := s.queue ++ [job]
        sent := s.sent + 1 } rfl
      rw [List.append_assoc, Nat.add_assoc, Nat.add_comm 1] at hleads
      exact .cons hsend hleads

/-- Each worker from `k` on takes one of the first jobs that wait. -/
theorem Carries.leads_taken {k : Nat} (first rest : List (Job α))
    (hs : Carries p seed s carried) (hqueue : s.queue = first ++ rest)
    (hidle : ∀ worker, k ≤ worker → worker < k + first.length →
      s.workers[worker]? = some .idle) :
    ∃ t after, Leads p seed s t ∧ Carries p seed t after ∧
      after.length = carried.length + first.length ∧ t.queue = rest ∧
      t.received = s.received ∧ after.map Prod.snd =
        (first.map (Job.answer p seed)).foldl
          (fun underWay answer =>
            Pool.begin (Pool.duration answer) answer underWay)
          (carried.map Prod.snd) := by
  induction first generalizing s carried k with
  | nil => exact ⟨s, carried, .refl s, hs, rfl, hqueue, rfl, rfl⟩
  | cons job first ih =>
      rw [List.length_cons] at hidle
      have hfree := hidle k (Nat.le_refl k) (by omega)
      obtain ⟨after, hafter, hlength, hends⟩ :=
        hs.begin hfree hqueue (Pool.duration (job.answer p seed))
      have htake : Moves p seed s _ _ := .take hfree hqueue
      obtain ⟨t, last, hleads, ht, hall, hrest, hreceived, hlast⟩ :=
        ih (k := k + 1) hafter rfl fun worker hle hlt => by
          have hne : k ≠ worker := by omega
          exact (List.getElem?_set_ne hne).trans
            (hidle worker (by omega) (by omega))
      refine ⟨t, last, .cons htake hleads, ht, ?_, hrest, hreceived, ?_⟩
      · rw [hall, hlength, List.length_cons]
        omega
      · rw [hlast, hends]
        rfl

variable {n : Nat} {jobs : List (Job α)}

theorem Sound.idle_of_beginRun? (hs : s.Sound p seed n)
    (hbegin : s.beginRun? jobs = some t) {worker : Nat} (hlt : worker < n) :
    t.workers[worker]? = some .idle := by
  obtain ⟨hopen, hcomplete, rfl⟩ := beginRun?_eq_some.mp hbegin
  rw [← hs.workers] at hlt
  have hmem : s.workers[worker] ∈ s.workers := List.getElem_mem hlt
  have hfree :=
    holds_of_held_eq_zero (hs.held_of_isComplete hcomplete) hmem
  refine (List.getElem?_eq_getElem hlt).trans (congrArg some ?_)
  cases hphase : s.workers[worker] with
  | idle => rfl
  | gone =>
      rw [hphase] at hmem
      exact absurd hmem (hs.staffed hopen)
  | carrying | counting | failed =>
      rw [hphase] at hfree
      cases hfree

theorem Sound.leads_by_clock (hn : 0 < n) (hs : s.Sound p seed n)
    (hbegin : s.beginRun? jobs = some t) :
    ∃ u, Leads p seed t u ∧ u.isComplete = true ∧
      u.received = Pool.inEndingOrder n (jobs.map (Job.answer p seed)) := by
  have hidle : ∀ worker, worker < n → t.workers[worker]? = some .idle :=
    fun worker => hs.idle_of_beginRun? hbegin
  obtain ⟨-, hcomplete, rfl⟩ := beginRun?_eq_some.mp hbegin
  obtain ⟨hqueue, hanswers, -⟩ := hs.idle_of_isComplete hcomplete
  have hsent := leads_sent p seed
    { s with unsent := jobs, received := [], sent := 0 }
  generalize hstate : ({ s with
      unsent := []
      queue := s.queue ++ jobs
      received := []
      sent := 0 + jobs.length } : PoolState α) = begun at hsent
  have hcarries : Carries p seed begun [] := by
    subst hstate
    refine ⟨rfl, hanswers, ?_, List.nodup_nil, nofun⟩
    simp [hqueue]
  have hwaiting : begun.queue = jobs.take n ++ jobs.drop n := by
    subst hstate
    rw [List.take_append_drop, hqueue, List.nil_append]
  obtain ⟨u, carried, htaken, hu, hlength, hrest, hreceived, hends⟩ :=
    hcarries.leads_taken (k := 0) _ _ hwaiting fun worker _ hlt => by
      subst hstate
      rw [List.length_take] at hlt
      exact hidle worker (by omega)
  have hbusy : carried = [] → u.queue = [] := by
    rintro rfl
    rw [List.length_nil, Nat.zero_add, List.length_take] at hlength
    rw [hrest]
    exact List.drop_eq_nil_of_le (by omega)
  obtain ⟨v, hlast, hdone, hall⟩ := hu.leads_complete hbusy
  refine ⟨v, hsent.trans (htaken.trans hlast), hdone, ?_⟩
  rw [hall, hreceived, hends, hrest, ← hstate, List.nil_append, List.map_take,
    List.map_drop]
  rfl

/-- A run of a pool by the clock is one of the runs under its schedules. -/
theorem exists_endsRun_of_run {ε : Type} (pool : Pool α)
    (hworkers : 0 < pool.workers) (jobs : List (Job α)) :
    ∃ u : PoolState α,
      EndsRun pool.propagation pool.seed pool.workers jobs u ∧
      (pool.run (ε := ε) jobs).result =
        .ok (u.results, { pool with
          totals := Pool.tally pool.totals (Pool.results u.received) }) := by
  obtain ⟨u, ⟨schedule, hschedule⟩, hcomplete, hreceived⟩ :=
    (sound_start pool.propagation pool.seed pool.workers).leads_by_clock
      hworkers rfl
  refine ⟨u, ⟨_, _, _, schedule, .start, rfl, hschedule, hcomplete⟩, ?_⟩
  rw [(Pool.run_gives pool jobs).result_eq, results, hreceived]

end PoolState

end CarrierTransport
