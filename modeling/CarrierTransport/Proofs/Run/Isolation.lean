import CarrierTransport.Proofs.Run.Results

/-!
# Runs of a pool are kept apart

A run counts its answers and does not ask which job an answer is to.  It gets
the right ones because what it has sent and not received is always in the queue,
with a worker or among the answers, so that nothing is left over for the next
run.  To say of a job or an answer which run it comes from, the states of a pool
are followed together with the numbers of the runs that sent the jobs.
-/

namespace CarrierTransport

variable {α : Type} [Scalar α]

namespace Pool

omit [Scalar α] in
theorem start_gives {ε : Type} (p : Propagation α) (seed : UInt64)
    (asked : Nat) :
    (Pool.start p seed asked : Logged α ε (Pool α)).Gives
      (.ok ⟨p, seed,
        if p.config.outputTrajectories then 1 else resolvedWorkers asked,
        .zero⟩) := by
  unfold Pool.start
  cases p.config.outputTrajectories with
  | false => exact (Logged.Gives.log _).after (.pure _)
  | true =>
      exact (Logged.Gives.log _).after ((Logged.Gives.log _).after (.pure _))

omit [Scalar α] in
theorem workers_pos_of_start {p : Propagation α} {seed : UInt64} {asked : Nat}
    {pool : Pool α}
    (h : (Pool.start p seed asked : Logged α Fault _).result = .ok pool) :
    0 < pool.workers := by
  rw [(start_gives p seed asked).result_eq] at h
  cases h
  change 0 < if _ then _ else _
  split
  · exact Nat.one_pos
  · exact Nat.lt_of_lt_of_le Nat.one_pos (Nat.le_max_left 1 _)

end Pool

/-- The numbers of the runs that sent the jobs: of each job in the queue, each
worker with a job, each answer and each answer received. -/
structure Origins where
  /-- The number of the run under way. -/
  run : Nat
  queue : List Nat
  workers : List (Option Nat)
  answers : List Nat
  received : List Nat
  deriving DecidableEq, Repr

namespace Origins

def start (workers : Nat) : Origins :=
  ⟨0, [], List.replicate workers none, [], []⟩

def beginRun (o : Origins) : Origins :=
  { o with run := o.run + 1, received := [] }

/-- A number goes where its job or the answer to it goes. -/
def move (o : Origins) : PoolMove → Origins
  | .send => { o with queue := o.queue ++ [o.run] }
  | .take worker =>
      { o with
        queue := o.queue.tail
        workers := o.workers.set worker o.queue.head? }
  | .answer worker =>
      { o with
        answers := o.answers ++ o.workers[worker]?.join.toList
        workers := o.workers.set worker none }
  | .receive =>
      { o with
        answers := o.answers.tail
        received := o.received ++ o.answers.head?.toList }
  | .carry _ | .count _ | .close | .leave _ => o

end Origins

namespace WorkerPhase

/-- The number of the run, at a worker that holds a job. -/
def heldFrom (run : Nat) (phase : WorkerPhase α) : Option Nat :=
  if phase.holds then some run else none

omit [Scalar α] in
theorem map_heldFrom_set (run : Nat) {workers : List (WorkerPhase α)}
    {worker : Nat} {before : WorkerPhase α}
    (h : workers[worker]? = some before) (after : WorkerPhase α)
    (hholds : after.holds = before.holds) :
    (workers.set worker after).map (heldFrom run) =
      workers.map (heldFrom run) := by
  have hsame : after.heldFrom run = before.heldFrom run := by
    unfold heldFrom
    rw [hholds]
  obtain ⟨hworker, rfl⟩ := List.getElem?_eq_some_iff.mp h
  rw [List.map_set, hsame, ← List.map_set, List.set_getElem_self]

end WorkerPhase

namespace PoolState

/-- The states that a pool can reach, with where everything in them comes
from. -/
inductive Traced (p : Propagation α) (seed : UInt64) (workers : Nat) :
    PoolState α → List (EventResult α) → Origins → Prop
  | start : Traced p seed workers (start workers) [] (.start workers)
  | beginRun {s t : PoolState α} {given : List (EventResult α)} {o : Origins}
      (jobs : List (Job α)) :
      Traced p seed workers s given o → s.beginRun? jobs = some t →
      Traced p seed workers t (given ++ s.results) o.beginRun
  | move {s t : PoolState α} {given : List (EventResult α)} {o : Origins}
      (move : PoolMove) :
      Traced p seed workers s given o → s.move? p seed move = some t →
      Traced p seed workers t given (o.move move)

variable {p : Propagation α} {seed : UInt64} {n : Nat} {s t : PoolState α}
variable {given : List (EventResult α)} {o : Origins} {move : PoolMove}

theorem Traced.reachable (h : Traced p seed n s given o) :
    Reachable p seed n s given := by
  induction h with
  | start => exact .start
  | beginRun jobs _ hbegin ih => exact .beginRun jobs ih hbegin
  | move move _ hmove ih => exact .move move ih hmove

theorem Reachable.traced (h : Reachable p seed n s given) :
    ∃ o, Traced p seed n s given o := by
  induction h with
  | start => exact ⟨_, .start⟩
  | beginRun jobs _ hbegin ih =>
      obtain ⟨o, ho⟩ := ih
      exact ⟨_, ho.beginRun jobs hbegin⟩
  | move move _ hmove ih =>
      obtain ⟨o, ho⟩ := ih
      exact ⟨_, ho.move move hmove⟩

/-- All that is in the pool, and every answer received, is of the run that is
under way. -/
structure OfOneRun (s : PoolState α) (o : Origins) : Prop where
  queue : o.queue = List.replicate s.queue.length o.run
  workers : o.workers = s.workers.map (WorkerPhase.heldFrom o.run)
  answers : o.answers = List.replicate s.answers.length o.run
  received : o.received = List.replicate s.received.length o.run

omit [Scalar α] in
theorem ofOneRun_start : (start n : PoolState α).OfOneRun (.start n) where
  queue := rfl
  workers := by
    unfold start Origins.start
    rw [List.map_replicate]
    rfl
  answers := rfl
  received := rfl

theorem OfOneRun.of_moves (ho : s.OfOneRun o) (h : s.Moves p seed move t) :
    t.OfOneRun (o.move move) := by
  obtain ⟨hqueue, hworkers, hanswers, hreceived⟩ := ho
  cases h with
  | @send job rest hunsent =>
      refine ⟨?_, hworkers, hanswers, hreceived⟩
      change o.queue ++ [o.run] = List.replicate (s.queue ++ [job]).length o.run
      rw [hqueue, List.length_append, List.length_singleton,
        List.replicate_succ']
  | @take worker job rest hworker hjob =>
      rw [hjob, List.length_cons, List.replicate_succ] at hqueue
      refine ⟨?_, ?_, hanswers, hreceived⟩
      · change o.queue.tail = List.replicate rest.length o.run
        rw [hqueue, List.tail_cons]
      · change o.workers.set worker o.queue.head? =
          (s.workers.set worker (.carrying job)).map
            (WorkerPhase.heldFrom o.run)
        rw [hqueue, hworkers, List.map_set]
        rfl
  -- A worker holds a job before and after these moves.
  | @carry worker job hworker =>
      have hsame := WorkerPhase.map_heldFrom_set o.run hworker
        (.afterEvent (job.answer p seed)) (WorkerPhase.holds_afterEvent _)
      exact ⟨hqueue, hworkers.trans hsame.symm, hanswers, hreceived⟩
  | @count worker result counter n left hworker =>
      have hsame := WorkerPhase.map_heldFrom_set o.run hworker
        (.counting result left) rfl
      exact ⟨hqueue, hworkers.trans hsame.symm, hanswers, hreceived⟩
  | @answer worker phase answer hworker hanswer =>
      have horigin : o.workers[worker]? = some (some o.run) := by
        rw [hworkers, List.getElem?_map, hworker, Option.map_some]
        unfold WorkerPhase.heldFrom
        rw [WorkerPhase.holds_of_answer? hanswer]
        rfl
      refine ⟨hqueue, ?_, ?_, hreceived⟩
      · change o.workers.set worker none =
          (s.workers.set worker .idle).map (WorkerPhase.heldFrom o.run)
        rw [hworkers, List.map_set]
        rfl
      · change o.answers ++ o.workers[worker]?.join.toList =
          List.replicate (s.answers ++ [answer]).length o.run
        rw [horigin, hanswers, List.length_append, List.length_singleton,
          List.replicate_succ']
        rfl
  | @receive answer rest hunsent hrest hless =>
      rw [hrest, List.length_cons, List.replicate_succ] at hanswers
      refine ⟨hqueue, hworkers, ?_, ?_⟩
      · change o.answers.tail = List.replicate rest.length o.run
        rw [hanswers, List.tail_cons]
      · change o.received ++ o.answers.head?.toList =
          List.replicate (s.received ++ [answer]).length o.run
        rw [hanswers, hreceived, List.length_append, List.length_singleton,
          List.replicate_succ']
        rfl
  | close => exact ⟨hqueue, hworkers, hanswers, hreceived⟩
  | leave hworker =>
      have hsame := WorkerPhase.map_heldFrom_set o.run hworker .gone rfl
      exact ⟨hqueue, hworkers.trans hsame.symm, hanswers, hreceived⟩

theorem OfOneRun.of_beginRun? {jobs : List (Job α)} (hs : s.Sound p seed n)
    (ho : s.OfOneRun o) (h : s.beginRun? jobs = some t) :
    t.OfOneRun o.beginRun := by
  obtain ⟨-, hcomplete, rfl⟩ := beginRun?_eq_some.mp h
  obtain ⟨hqueue, hanswers, -⟩ := hs.idle_of_isComplete hcomplete
  -- With nothing in the pool the number of the run appears nowhere.
  have hidle (run : Nat) : s.workers.map (WorkerPhase.heldFrom run) =
      s.workers.map fun _ => none := by
    refine List.map_congr_left fun phase hphase => ?_
    unfold WorkerPhase.heldFrom
    rw [holds_of_held_eq_zero (hs.held_of_isComplete hcomplete) hphase]
    rfl
  refine ⟨?_, ?_, ?_, rfl⟩
  · rw [hqueue]
    exact ho.queue.trans (by rw [hqueue]; rfl)
  · exact ho.workers.trans ((hidle _).trans (hidle _).symm)
  · rw [hanswers]
    exact ho.answers.trans (by rw [hanswers]; rfl)

theorem Traced.ofOneRun (h : Traced p seed n s given o) : s.OfOneRun o := by
  induction h with
  | start => exact ofOneRun_start
  | beginRun jobs hs hbegin ih =>
      exact ih.of_beginRun? hs.reachable.sound hbegin
  | move move _ hmove ih => exact ih.of_moves (moves_of_move? hmove)

/-- What holds of a pool of `n` workers in every state that it can reach. -/
structure Orderly (p : Propagation α) (seed : UInt64) (n : Nat)
    (s : PoolState α) (given : List (EventResult α)) : Prop where
  balance : s.sent = s.received.length +
    (s.queue.length + s.held + s.answers.length)
  staffed : s.workers.length = n ∧ (s.isOpen = true → .gone ∉ s.workers)
  goesOn : s.unsent = [] → s.received.length < s.sent →
    (∃ t, s.move? p seed .receive = some t) ∨
      ∃ move t, move.isWork = true ∧ s.move? p seed move = some t
  leavesNothing : s.isComplete = true →
    s.queue = [] ∧ s.held = 0 ∧ s.answers = []
  /-- A run from here sends each of its jobs once, and when it is over it has
  received the answer to each of them and no other. -/
  answered : ∀ jobs t schedule u, s.beginRun? jobs = some t →
    t.follow? p seed schedule = some u →
    u.sent + u.unsent.length = jobs.length ∧
      schedule.length ≤ t.movesLeft ∧
      (u.isComplete = true → u.received.length = jobs.length ∧
        u.received.Perm (jobs.map (Job.answer p seed)))
  traced : ∃ o, Traced p seed n s given o
  /-- Nothing in the pool, and no answer received, is of another run. -/
  ofOneRun : ∀ o, Traced p seed n s given o → s.OfOneRun o

theorem goes_on (hs : s.Sound p seed n) (hn : 0 < n) (hunsent : s.unsent = [])
    (hless : s.received.length < s.sent) :
    (∃ t, s.move? p seed .receive = some t) ∨
      ∃ move t, move.isWork = true ∧ s.move? p seed move = some t := by
  obtain ⟨t, hmove⟩ | ⟨move, t, hwork, hmove⟩ :=
    hs.receives_or_works hn hunsent hless
  · exact .inl ⟨t, move?_of_moves hmove⟩
  · exact .inr ⟨move, t, hwork, move?_of_moves hmove⟩

/-- In every state that a pool can reach, over any runs under any schedule and
whichever events fail, a run that waits can go on, and what it receives are the
answers to its own jobs. -/
theorem orderly_of_reachable {asked : Nat} {pool : Pool α}
    (hpool : (Pool.start p seed asked : Logged α Fault _).result = .ok pool)
    (h : Reachable p seed pool.workers s given) :
    s.Orderly p seed pool.workers given where
  balance := h.sound.balance
  staffed := ⟨h.sound.workers, h.sound.staffed⟩
  goesOn := goes_on h.sound (Pool.workers_pos_of_start hpool)
  leavesNothing hcomplete := by
    obtain ⟨hqueue, hanswers, -⟩ := h.sound.idle_of_isComplete hcomplete
    exact ⟨hqueue, h.sound.held_of_isComplete hcomplete, hanswers⟩
  answered jobs t schedule u hbegin hschedule := by
    obtain ⟨hsound, hdue⟩ := sound_of_follow? h.sound hbegin hschedule
    refine ⟨?_, ?_, fun hcomplete => ?_⟩
    · rw [hsound.jobs, hdue, Multiset.coe_card, List.length_map]
    · exact Nat.le_of_add_right_le (length_add_movesLeft_le hschedule)
    · have hperm := received_of_follow? h.sound hbegin hschedule hcomplete
      exact ⟨hperm.length_eq.trans (List.length_map _), hperm⟩
  traced := h.traced
  ofOneRun _ ho := ho.ofOneRun

/-- The thin layer with half a field, of which no trajectories are recorded, so
that several workers may carry its events. -/
def quietHalfField : Propagation Double :=
  { halfField with
    config := { halfField.config with outputTrajectories := false } }

/-- The second of two runs of the three events, while it waits: one answer is
received, one is there and one is still with a worker. -/
theorem orderly_in_second_run :
    ∃ (pool : Pool Double) (u : PoolState Double)
      (given : List (EventResult Double)),
      (Pool.start quietHalfField 42 2 : Logged Double Fault _).result =
          .ok pool ∧
        Reachable quietHalfField 42 pool.workers u given ∧
        (u.sent, u.received.length, u.queue.length, u.held,
          u.answers.length) = (3, 1, 0, 1, 1) ∧
        u.Orderly quietHalfField 42 pool.workers given := by
  have hruns : (do
      let s ← (start 2).beginRun? threeJobs
      let t ← s.follow? quietHalfField 42 overtaking
      let t ← t.beginRun? threeJobs
      let u ← t.follow? quietHalfField 42 (overtaking.take 23)
      return (u.sent, u.received.length, u.queue.length, u.held,
        u.answers.length)) = some (3, 1, 0, 1, 1) := by
    decide +kernel
  simp only [Option.bind_eq_bind, Option.bind_eq_some_iff] at hruns
  obtain ⟨s, hs, t, ht, t', ht', u, hu, hcounts⟩ := hruns
  have hpool :
      (Pool.start quietHalfField 42 2 : Logged Double Fault _).result =
        .ok ⟨quietHalfField, 42, 2, .zero⟩ := by
    have hworkers : (if quietHalfField.config.outputTrajectories then 1
        else resolvedWorkers 2) = 2 := by
      decide
    rw [(Pool.start_gives quietHalfField 42 2).result_eq, hworkers]
  have hstart : Reachable quietHalfField 42 2 (start 2) [] := .start
  have hsecond := (hstart.run hs ht).run ht' hu
  exact ⟨_, u, _, hpool, hsecond, Option.some.inj hcounts,
    orderly_of_reachable hpool hsecond⟩

end PoolState

end CarrierTransport
