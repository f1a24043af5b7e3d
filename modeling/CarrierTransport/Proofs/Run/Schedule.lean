import CarrierTransport.Run.Schedule
import Mathlib.Algebra.Order.Group.Multiset
import Mathlib.Tactic.Abel

/-!
# Runs of a pool under every schedule

Every job of a run is always in one place: not yet sent, in the queue, with a
worker, or answered.  The answers that are due to a run are therefore the same
after every move.  A run that is not complete can go on, and every move leaves
fewer moves to make.
-/

namespace CarrierTransport

variable {α : Type} [Scalar α]

theorem coe_filterMap_cons {β γ : Type} (f : β → Option γ) (a : β)
    (l : List β) :
    ((a :: l).filterMap f : Multiset γ) = (f a).toList + l.filterMap f := by
  cases h : f a <;> simp [h, ← Multiset.cons_coe]

theorem coe_filterMap_set {β γ : Type} (f : β → Option γ) {l : List β}
    {i : Nat} {a : β} (h : l[i]? = some a) (b : β) :
    ((l.set i b).filterMap f : Multiset γ) + (f a).toList =
      l.filterMap f + (f b).toList := by
  induction l generalizing i with
  | nil => simp at h
  | cons c l ih =>
      cases i with
      | zero =>
          obtain rfl : c = a := by simpa using h
          rw [List.set_cons_zero, coe_filterMap_cons, coe_filterMap_cons]
          abel
      | succ i =>
          have hrest := ih (by simpa using h)
          rw [List.set_cons_succ, coe_filterMap_cons, coe_filterMap_cons,
            add_assoc, hrest, add_assoc]

theorem coe_cons {β : Type} (b : β) (l : List β) :
    ((b :: l : List β) : Multiset β) = {b} + l := by
  rw [← Multiset.cons_coe, Multiset.singleton_add]

theorem coe_concat {β : Type} (l : List β) (b : β) :
    ((l ++ [b] : List β) : Multiset β) = l + {b} := by
  rw [← Multiset.coe_add, Multiset.coe_singleton]

theorem sum_map_set {β M : Type} [AddCommMonoid M] (f : β → M) {l : List β}
    {i : Nat} {a : β} (h : l[i]? = some a) (b : β) :
    ((l.set i b).map f).sum + f a = (l.map f).sum + f b := by
  induction l generalizing i with
  | nil => simp at h
  | cons c l ih =>
      cases i with
      | zero =>
          obtain rfl : c = a := by simpa using h
          simp only [List.set_cons_zero, List.map_cons, List.sum_cons]
          abel
      | succ i =>
          have hrest := ih (by simpa using h)
          simp only [List.set_cons_succ, List.map_cons, List.sum_cons]
          rw [add_assoc, hrest, add_assoc]

namespace WorkerPhase

/-- The answer that a worker is going to give. -/
def owed (p : Propagation α) (seed : UInt64) :
    WorkerPhase α → Option (EventAnswer α)
  | idle | gone => none
  | carrying job => some (job.answer p seed)
  | counting result _ => some (result.event, some result.output)
  | failed event => some (event, none)

/-- Whether a worker has taken a job that it has not answered. -/
def holds : WorkerPhase α → Bool
  | idle | gone => false
  | carrying _ | counting _ _ | failed _ => true

/-- A bound on the moves that a worker can make with its job or without one. -/
def movesLeft : WorkerPhase α → Nat
  | idle => 1
  | carrying _ => 14
  | counting _ left => 3 + left.length
  | failed _ => 3
  | gone => 0

theorem isSome_owed (p : Propagation α) (seed : UInt64)
    (phase : WorkerPhase α) : (phase.owed p seed).isSome = phase.holds := by
  cases phase <;> rfl

theorem owed_afterEvent (p : Propagation α) (seed : UInt64)
    (answer : EventAnswer α) :
    (afterEvent answer).owed p seed = some answer := by
  obtain ⟨event, output⟩ := answer
  cases output <;> rfl

theorem holds_afterEvent (answer : EventAnswer α) :
    (afterEvent answer).holds = true := by
  obtain ⟨event, output⟩ := answer
  cases output <;> rfl

theorem owed_of_answer? {p : Propagation α} {seed : UInt64}
    {phase : WorkerPhase α} {answer : EventAnswer α}
    (h : phase.answer? = some answer) : phase.owed p seed = some answer := by
  cases phase with
  | counting result left =>
      cases left with
      | nil => exact h
      | cons first left => cases h
  | failed event => exact h
  | idle | carrying | gone => cases h

omit [Scalar α] in
theorem holds_of_answer? {phase : WorkerPhase α} {answer : EventAnswer α}
    (h : phase.answer? = some answer) : phase.holds = true := by
  cases phase with
  | carrying | counting | failed => rfl
  | idle | gone => cases h

theorem movesLeft_afterEvent (answer : EventAnswer α) :
    (afterEvent answer).movesLeft ≤ 13 := by
  obtain ⟨event, output⟩ := answer
  cases output with
  | none => exact Nat.le_of_ble_eq_true rfl
  | some output => exact Nat.le_refl 13

omit [Scalar α] in
theorem movesLeft_of_answer? {phase : WorkerPhase α} {answer : EventAnswer α}
    (h : phase.answer? = some answer) : phase.movesLeft = 3 := by
  cases phase with
  | counting result left =>
      cases left with
      | nil => rfl
      | cons first left => cases h
  | failed event => rfl
  | idle | carrying | gone => cases h

end WorkerPhase

/-- Whether a move is a worker's on its way to the next answer. -/
def PoolMove.isWork : PoolMove → Bool
  | take _ | carry _ | count _ | answer _ => true
  | send | receive | close | leave _ => false

namespace PoolState

/-- What each move needs and what it does. -/
inductive Moves (p : Propagation α) (seed : UInt64) (s : PoolState α) :
    PoolMove → PoolState α → Prop
  | send {job : Job α} {rest : List (Job α)} :
      s.unsent = job :: rest →
      Moves p seed s .send { s with
        unsent := rest
        queue := s.queue ++ [job]
        sent := s.sent + 1 }
  | take {worker : Nat} {job : Job α} {rest : List (Job α)} :
      s.workers[worker]? = some .idle → s.queue = job :: rest →
      Moves p seed s (.take worker)
        ({ s with queue := rest }.setWorker worker (.carrying job))
  | carry {worker : Nat} {job : Job α} :
      s.workers[worker]? = some (.carrying job) →
      Moves p seed s (.carry worker)
        (s.setWorker worker (.afterEvent (job.answer p seed)))
  | count {worker : Nat} {result : EventResult α} {counter : Counter}
      {n : UInt64} {left : List (Counter × UInt64)} :
      s.workers[worker]? = some (.counting result ((counter, n) :: left)) →
      Moves p seed s (.count worker)
        ({ s with totals := s.totals.add counter n }.setWorker worker
          (.counting result left))
  | answer {worker : Nat} {phase : WorkerPhase α} {answer : EventAnswer α} :
      s.workers[worker]? = some phase → phase.answer? = some answer →
      Moves p seed s (.answer worker)
        ({ s with answers := s.answers ++ [answer] }.setWorker worker .idle)
  | receive {answer : EventAnswer α} {rest : List (EventAnswer α)} :
      s.unsent = [] → s.answers = answer :: rest →
      s.received.length < s.sent →
      Moves p seed s .receive { s with
        answers := rest
        received := s.received ++ [answer] }
  | close : s.isOpen = true → s.isComplete = true →
      Moves p seed s .close { s with isOpen := false }
  | leave {worker : Nat} :
      s.workers[worker]? = some .idle → s.queue = [] → s.isOpen = false →
      Moves p seed s (.leave worker) (s.setWorker worker .gone)

variable {p : Propagation α} {seed : UInt64} {s t : PoolState α}
variable {move : PoolMove}

theorem moves_of_move? (h : s.move? p seed move = some t) :
    s.Moves p seed move t := by
  cases move with
  | send =>
      simp only [move?] at h
      split at h
      · cases h
      · cases h
        exact .send ‹_›
  | take worker =>
      simp only [move?] at h
      split at h
      · cases h
        exact .take ‹_› ‹_›
      · cases h
  | carry worker =>
      simp only [move?] at h
      split at h
      · cases h
        exact .carry ‹_›
      · cases h
  | count worker =>
      simp only [move?] at h
      split at h
      · cases h
        exact .count ‹_›
      · cases h
  | answer worker =>
      simp only [move?] at h
      split at h
      · rename_i answer hanswer
        cases h
        obtain ⟨phase, hphase, hanswer⟩ := Option.bind_eq_some_iff.mp hanswer
        exact .answer hphase hanswer
      · cases h
  | receive =>
      simp only [move?] at h
      split at h
      · split at h
        · cases h
          exact .receive ‹_› ‹_› ‹_›
        · cases h
      · cases h
  | close =>
      simp only [move?] at h
      split at h
      · rename_i hboth
        obtain ⟨hopen, hcomplete⟩ := Bool.and_eq_true_iff.mp hboth
        cases h
        exact .close hopen hcomplete
      · cases h
  | leave worker =>
      simp only [move?] at h
      split at h
      · split at h
        · cases h
        · cases h
          exact .leave ‹_› ‹_› (by simpa using ‹¬s.isOpen = true›)
      · cases h

theorem move?_of_moves (h : s.Moves p seed move t) :
    s.move? p seed move = some t := by
  cases h with
  | send hunsent => simp [move?, hunsent]
  | take hworker hqueue => simp [move?, hworker, hqueue]
  | carry hworker => simp [move?, hworker]
  | count hworker => simp [move?, hworker]
  | answer hworker hanswer => simp [move?, hworker, hanswer]
  | receive hunsent hanswers hless => simp [move?, hunsent, hanswers, hless]
  | close hopen hcomplete => simp [move?, hopen, hcomplete]
  | leave hworker hqueue hclosed => simp [move?, hworker, hqueue, hclosed]

/-! ## What is due -/

def owed (p : Propagation α) (seed : UInt64) (s : PoolState α) :
    Multiset (EventAnswer α) :=
  s.workers.filterMap (WorkerPhase.owed p seed)

/-- The answers that a run has received or is going to receive. -/
def due (p : Propagation α) (seed : UInt64) (s : PoolState α) :
    Multiset (EventAnswer α) :=
  s.received + s.answers + s.owed p seed + s.queue.map (Job.answer p seed) +
    s.unsent.map (Job.answer p seed)

def held (s : PoolState α) : Nat :=
  s.workers.countP WorkerPhase.holds

theorem card_owed (p : Propagation α) (seed : UInt64) (s : PoolState α) :
    (s.owed p seed).card = s.held := by
  unfold owed held
  rw [Multiset.coe_card, List.length_filterMap_eq_countP]
  simp only [WorkerPhase.isSome_owed]

theorem card_due (p : Propagation α) (seed : UInt64) (s : PoolState α) :
    (s.due p seed).card = s.received.length + s.answers.length + s.held +
      s.queue.length + s.unsent.length := by
  unfold due
  simp only [Multiset.card_add, Multiset.coe_card, List.length_map, card_owed]

theorem owed_setWorker (p : Propagation α) (seed : UInt64) {worker : Nat}
    {before : WorkerPhase α} (h : s.workers[worker]? = some before)
    (after : WorkerPhase α) :
    (s.setWorker worker after).owed p seed + (before.owed p seed).toList =
      s.owed p seed + (after.owed p seed).toList :=
  coe_filterMap_set _ h after

theorem owed_setWorker_eq (p : Propagation α) (seed : UInt64) {worker : Nat}
    {before : WorkerPhase α} (h : s.workers[worker]? = some before)
    {after : WorkerPhase α} (heq : after.owed p seed = before.owed p seed) :
    (s.setWorker worker after).owed p seed = s.owed p seed := by
  have howed := owed_setWorker p seed h after
  rw [heq] at howed
  exact add_right_cancel howed

/-- A move takes a job or an answer from one place to the next. -/
theorem due_of_moves (h : s.Moves p seed move t) :
    t.due p seed = s.due p seed := by
  cases h with
  | @send job rest hunsent =>
      change s.received + s.answers + s.owed p seed +
        ((s.queue ++ [job]).map (Job.answer p seed)) +
        (rest.map (Job.answer p seed)) = _
      unfold due
      rw [hunsent, List.map_append, List.map_singleton, coe_concat,
        List.map_cons, coe_cons]
      abel
  | @take worker job rest hworker hqueue =>
      have howed := owed_setWorker p seed hworker (.carrying job)
      change _ + 0 = _ + {job.answer p seed} at howed
      rw [add_zero] at howed
      change s.received + s.answers +
        (s.setWorker worker (.carrying job)).owed p seed +
        (rest.map (Job.answer p seed)) + (s.unsent.map (Job.answer p seed)) = _
      unfold due
      rw [howed, hqueue, List.map_cons, coe_cons]
      abel
  | @carry worker job hworker =>
      have howed := owed_setWorker_eq p seed hworker
        (WorkerPhase.owed_afterEvent p seed (job.answer p seed))
      unfold due
      rw [howed]
      rfl
  | @count worker result counter n left hworker =>
      have hsame : (WorkerPhase.counting result left).owed p seed =
          (WorkerPhase.counting result ((counter, n) :: left)).owed p seed :=
        rfl
      have howed := owed_setWorker_eq p seed hworker hsame
      change s.received + s.answers +
        (s.setWorker worker (.counting result left)).owed p seed +
        (s.queue.map (Job.answer p seed)) +
        (s.unsent.map (Job.answer p seed)) = _
      rw [howed]
      rfl
  | @answer worker phase answer hworker hanswer =>
      have howed := owed_setWorker p seed hworker .idle
      rw [WorkerPhase.owed_of_answer? hanswer] at howed
      change _ + ({answer} : Multiset (EventAnswer α)) = _ + 0 at howed
      rw [add_zero] at howed
      change s.received + (s.answers ++ [answer] : List _) +
        (s.setWorker worker .idle).owed p seed +
        (s.queue.map (Job.answer p seed)) +
        (s.unsent.map (Job.answer p seed)) = _
      unfold due
      rw [← howed, coe_concat]
      abel
  | @receive answer rest hunsent hanswers hless =>
      change (s.received ++ [answer] : List _) + rest + s.owed p seed +
        (s.queue.map (Job.answer p seed)) +
        (s.unsent.map (Job.answer p seed)) = _
      unfold due
      rw [hanswers, coe_concat, coe_cons]
      abel
  | close hopen hcomplete => rfl
  | leave hworker hqueue hclosed =>
      have hsame : (WorkerPhase.gone : WorkerPhase α).owed p seed =
          WorkerPhase.idle.owed p seed := rfl
      have howed := owed_setWorker_eq p seed hworker hsame
      unfold due
      rw [howed]
      rfl

/-- The jobs of the run, sent and unsent, are as many as its answers.  Only a
pool that is closed, and so has no run under way, loses workers. -/
structure Sound (p : Propagation α) (seed : UInt64) (n : Nat)
    (s : PoolState α) : Prop where
  jobs : s.sent + s.unsent.length = (s.due p seed).card
  workers : s.workers.length = n
  staffed : s.isOpen = true → .gone ∉ s.workers
  closed : s.isOpen = false → s.isComplete = true

omit [Scalar α] in
theorem isComplete_iff :
    s.isComplete = true ↔ s.unsent = [] ∧ s.received.length = s.sent := by
  simp [isComplete]

variable {n : Nat}

theorem sound_start (p : Propagation α) (seed : UInt64) (n : Nat) :
    (start n : PoolState α).Sound p seed n := by
  have howed : (start n : PoolState α).owed p seed = 0 := by
    unfold owed start
    rw [List.filterMap_replicate_of_none rfl]
    rfl
  constructor
  · unfold due
    rw [howed]
    rfl
  · exact List.length_replicate
  · intro _ hgone
    cases List.eq_of_mem_replicate hgone
  · intro hclosed
    cases hclosed

omit [Scalar α] in
theorem not_mem_setWorker {worker : Nat} {phase : WorkerPhase α}
    (hgone : .gone ∉ s.workers) (hphase : phase ≠ .gone) :
    .gone ∉ (s.setWorker worker phase).workers := by
  intro h
  obtain h | h := List.mem_or_eq_of_mem_set h
  · exact hgone h
  · exact hphase h.symm

theorem afterEvent_ne_gone (answer : EventAnswer α) :
    WorkerPhase.afterEvent answer ≠ .gone := by
  obtain ⟨event, output⟩ := answer
  cases output <;> simp [WorkerPhase.afterEvent]

theorem Sound.of_moves (hs : s.Sound p seed n) (h : s.Moves p seed move t) :
    t.Sound p seed n := by
  have hdue := due_of_moves h
  constructor
  · rw [hdue, ← hs.jobs]
    cases h with
    | @send job rest hunsent =>
        rw [hunsent, List.length_cons]
        change s.sent + 1 + rest.length = _
        omega
    | take | carry | count | answer | receive | close | leave => rfl
  · rw [← hs.workers]
    cases h with
    | take | carry | count | answer | leave => exact List.length_set
    | send | receive | close => rfl
  · intro hopen
    cases h with
    | send | receive => exact hs.staffed hopen
    | take hworker _ | count hworker =>
        exact not_mem_setWorker (s := s) (hs.staffed hopen) nofun
    | answer => exact not_mem_setWorker (s := s) (hs.staffed hopen) nofun
    | carry => exact not_mem_setWorker (hs.staffed hopen) (afterEvent_ne_gone _)
    | close => cases hopen
    | leave _ _ hclosed => cases hclosed.symm.trans hopen
  · intro hclosed
    cases h with
    | send hunsent =>
        have hnone := (isComplete_iff.mp (hs.closed hclosed)).1
        rw [hunsent] at hnone
        cases hnone
    | receive _ _ hless =>
        have hall := (isComplete_iff.mp (hs.closed hclosed)).2
        omega
    | close _ hcomplete => exact hcomplete
    | take | carry | count | answer | leave => exact hs.closed hclosed

theorem Sound.balance (hs : s.Sound p seed n) :
    s.sent = s.received.length +
      (s.queue.length + s.held + s.answers.length) := by
  have hjobs := hs.jobs
  rw [card_due] at hjobs
  omega

/-- Nothing is left over between runs. -/
theorem Sound.idle_of_isComplete (hs : s.Sound p seed n)
    (h : s.isComplete = true) :
    s.queue = [] ∧ s.answers = [] ∧ s.owed p seed = 0 := by
  have hreceived := (isComplete_iff.mp h).2
  have hbalance := hs.balance
  refine ⟨List.eq_nil_of_length_eq_zero ?_, List.eq_nil_of_length_eq_zero ?_,
    Multiset.card_eq_zero.mp ?_⟩
  · omega
  · omega
  · rw [card_owed]
    omega

theorem Sound.held_of_isComplete (hs : s.Sound p seed n)
    (h : s.isComplete = true) : s.held = 0 := by
  rw [← card_owed p seed, (hs.idle_of_isComplete h).2.2, Multiset.card_zero]

omit [Scalar α] in
theorem holds_of_held_eq_zero (h : s.held = 0) {phase : WorkerPhase α}
    (hphase : phase ∈ s.workers) : phase.holds = false :=
  Bool.eq_false_iff.mpr (List.countP_eq_zero.mp h phase hphase)

omit [Scalar α] in
theorem beginRun?_eq_some {jobs : List (Job α)} :
    s.beginRun? jobs = some t ↔ s.isOpen = true ∧ s.isComplete = true ∧
      t = { s with unsent := jobs, received := [], sent := 0 } := by
  unfold beginRun?
  rw [Option.ite_none_right_eq_some, Bool.and_eq_true, and_assoc,
    Option.some.injEq, eq_comm (a := t)]

theorem due_of_beginRun? {jobs : List (Job α)} (hs : s.Sound p seed n)
    (h : s.beginRun? jobs = some t) :
    t.due p seed = jobs.map (Job.answer p seed) ∧ t.Sound p seed n := by
  obtain ⟨hopen, hcomplete, rfl⟩ := beginRun?_eq_some.mp h
  obtain ⟨hqueue, hanswers, howed⟩ := hs.idle_of_isComplete hcomplete
  have hdue : due p seed
      { s with unsent := jobs, received := [], sent := 0 } =
        jobs.map (Job.answer p seed) := by
    unfold due
    change _ + _ + s.owed p seed + _ + _ = _
    rw [howed, hqueue, hanswers]
    simp
  refine ⟨hdue, ?_, hs.workers, hs.staffed, ?_⟩
  · rw [hdue, Multiset.coe_card, List.length_map, Nat.zero_add]
  · intro hclosed
    cases hopen.symm.trans hclosed

theorem Reachable.sound {given : List (EventResult α)}
    (h : Reachable p seed n s given) : s.Sound p seed n := by
  induction h with
  | start => exact sound_start p seed n
  | beginRun jobs _ hbegin ih => exact (due_of_beginRun? ih hbegin).2
  | move move _ hmove ih => exact ih.of_moves (moves_of_move? hmove)

/-! ## Schedules -/

theorem follow?_invariant {P : PoolState α → Prop}
    (keeps : ∀ s t move, Moves p seed s move t → P s → P t)
    {schedule : List PoolMove} (h : s.follow? p seed schedule = some t)
    (hs : P s) : P t := by
  unfold follow? at h
  induction schedule generalizing s with
  | nil =>
      cases h
      exact hs
  | cons move schedule ih =>
      obtain ⟨middle, hmove, hrest⟩ := Option.bind_eq_some_iff.mp h
      exact ih hrest (keeps _ _ _ (moves_of_move? hmove) hs)

theorem Reachable.of_follow? {given : List (EventResult α)}
    {schedule : List PoolMove} (hs : Reachable p seed n s given)
    (h : s.follow? p seed schedule = some t) : Reachable p seed n t given :=
  follow?_invariant (P := fun s => Reachable p seed n s given)
    (fun _ _ move hmove ha => .move move ha (move?_of_moves hmove)) h hs

theorem Reachable.run {u : PoolState α} {given : List (EventResult α)}
    {jobs : List (Job α)} {schedule : List PoolMove}
    (hs : Reachable p seed n s given) (hbegin : s.beginRun? jobs = some t)
    (hschedule : t.follow? p seed schedule = some u) :
    Reachable p seed n u (given ++ s.results) :=
  (hs.beginRun jobs hbegin).of_follow? hschedule

/-- All the way through a run the answers due are those to its jobs. -/
theorem sound_of_follow? {u : PoolState α} {jobs : List (Job α)}
    {schedule : List PoolMove} (hs : s.Sound p seed n)
    (hbegin : s.beginRun? jobs = some t)
    (hschedule : t.follow? p seed schedule = some u) :
    u.Sound p seed n ∧ u.due p seed = jobs.map (Job.answer p seed) := by
  obtain ⟨hdue, hsound⟩ := due_of_beginRun? hs hbegin
  refine follow?_invariant (P := fun s => s.Sound p seed n ∧
    s.due p seed = jobs.map (Job.answer p seed)) ?_ hschedule ⟨hsound, hdue⟩
  intro a b move hmove ha
  exact ⟨ha.1.of_moves hmove, (due_of_moves hmove).trans ha.2⟩

theorem received_of_follow? {u : PoolState α} {jobs : List (Job α)}
    {schedule : List PoolMove} (hs : s.Sound p seed n)
    (hbegin : s.beginRun? jobs = some t)
    (hschedule : t.follow? p seed schedule = some u)
    (hcomplete : u.isComplete = true) :
    u.received.Perm (jobs.map (Job.answer p seed)) := by
  obtain ⟨hsound, hdue⟩ := sound_of_follow? hs hbegin hschedule
  obtain ⟨hqueue, hanswers, howed⟩ := hsound.idle_of_isComplete hcomplete
  unfold due at hdue
  rw [hqueue, hanswers, howed, (isComplete_iff.mp hcomplete).1] at hdue
  simp only [List.map_nil, Multiset.coe_nil, add_zero] at hdue
  exact Multiset.coe_eq_coe.mp hdue

/-- A bound on the moves that are left. -/
def movesLeft (s : PoolState α) : Nat :=
  16 * s.unsent.length + 15 * s.queue.length +
    (s.workers.map WorkerPhase.movesLeft).sum + s.answers.length +
    if s.isOpen then 1 else 0

omit [Scalar α] in
theorem movesLeft_setWorker {worker : Nat} {before : WorkerPhase α}
    (h : s.workers[worker]? = some before) (after : WorkerPhase α) :
    (s.setWorker worker after).movesLeft + before.movesLeft =
      s.movesLeft + after.movesLeft := by
  have hsum := sum_map_set WorkerPhase.movesLeft h after
  unfold movesLeft setWorker
  simp only
  omega

theorem movesLeft_of_moves (h : s.Moves p seed move t) :
    t.movesLeft < s.movesLeft := by
  cases h with
  | send hunsent =>
      unfold movesLeft
      simp only [hunsent, List.length_append, List.length_cons,
        List.length_nil]
      omega
  | @take worker job rest hworker hqueue =>
      have hset := movesLeft_setWorker (s := { s with queue := rest }) hworker
        (.carrying job)
      have hqueued : movesLeft { s with queue := rest } + 15 = s.movesLeft := by
        unfold movesLeft
        simp only [hqueue, List.length_cons]
        omega
      simp only [WorkerPhase.movesLeft] at hset
      omega
  | @carry worker job hworker =>
      have hset := movesLeft_setWorker hworker
        (.afterEvent (job.answer p seed))
      have hafter := WorkerPhase.movesLeft_afterEvent (job.answer p seed)
      rw [WorkerPhase.movesLeft] at hset
      omega
  | @count worker result counter n left hworker =>
      have hset := movesLeft_setWorker
        (s := { s with totals := s.totals.add counter n }) hworker
        (.counting result left)
      simp only [WorkerPhase.movesLeft, List.length_cons] at hset
      change _ + _ = s.movesLeft + _ at hset
      omega
  | @answer worker phase answer hworker hanswer =>
      have hset := movesLeft_setWorker
        (s := { s with answers := s.answers ++ [answer] }) hworker .idle
      have hanswered : movesLeft { s with answers := s.answers ++ [answer] } =
          s.movesLeft + 1 := by
        unfold movesLeft
        simp only [List.length_append, List.length_cons, List.length_nil]
        omega
      rw [WorkerPhase.movesLeft_of_answer? hanswer, hanswered] at hset
      simp only [WorkerPhase.movesLeft] at hset
      omega
  | receive hunsent hanswers hless =>
      unfold movesLeft
      simp only [hanswers, List.length_cons]
      omega
  | close hopen hcomplete =>
      unfold movesLeft
      simp [hopen]
  | leave hworker hqueue hclosed =>
      have hset := movesLeft_setWorker hworker .gone
      simp only [WorkerPhase.movesLeft] at hset
      omega

/-- No schedule goes on for ever. -/
theorem length_add_movesLeft_le {schedule : List PoolMove}
    (h : s.follow? p seed schedule = some t) :
    schedule.length + t.movesLeft ≤ s.movesLeft := by
  unfold follow? at h
  induction schedule generalizing s with
  | nil =>
      cases h
      exact Nat.le_of_eq (Nat.zero_add _)
  | cons move schedule ih =>
      obtain ⟨middle, hmove, hrest⟩ := Option.bind_eq_some_iff.mp h
      have hless := movesLeft_of_moves (moves_of_move? hmove)
      have hbound := ih hrest
      rw [List.length_cons]
      omega

theorem exists_work_of_holds {worker : Nat} {phase : WorkerPhase α}
    (hworker : s.workers[worker]? = some phase)
    (hholds : phase.holds = true) :
    ∃ move t, move.isWork = true ∧ Moves p seed s move t := by
  cases phase with
  | idle | gone => cases hholds
  | carrying job => exact ⟨_, _, rfl, .carry hworker⟩
  | counting result left =>
      cases left with
      | nil => exact ⟨_, _, rfl, .answer hworker rfl⟩
      | cons addition left => exact ⟨_, _, rfl, .count hworker⟩
  | failed event => exact ⟨_, _, rfl, .answer hworker rfl⟩

theorem Sound.exists_take (hs : s.Sound p seed n) (hn : 0 < n)
    (hopen : s.isOpen = true)
    (hidle : ∀ phase ∈ s.workers, phase.holds = false) {job : Job α}
    {rest : List (Job α)} (hqueue : s.queue = job :: rest) :
    ∃ move t, move.isWork = true ∧ Moves p seed s move t := by
  have hlength : 0 < s.workers.length := by
    rw [hs.workers]
    exact hn
  have hfirst : s.workers[0]? = some s.workers[0] :=
    List.getElem?_eq_getElem hlength
  have hmem : s.workers[0] ∈ s.workers := List.getElem_mem hlength
  cases hphase : s.workers[0] with
  | idle =>
      rw [hphase] at hfirst
      exact ⟨_, _, rfl, .take hfirst hqueue⟩
  | gone =>
      rw [hphase] at hmem
      exact absurd hmem (hs.staffed hopen)
  | carrying | counting | failed =>
      rw [hphase] at hmem
      cases hidle _ hmem

theorem Sound.isOpen_of_not_isComplete (hs : s.Sound p seed n)
    (h : s.isComplete = false) : s.isOpen = true := by
  cases hopen : s.isOpen with
  | true => rfl
  | false => cases h.symm.trans (hs.closed hopen)

/-- A run that waits for an answer finds one, or a worker is on its way to
it. -/
theorem Sound.receives_or_works (hs : s.Sound p seed n) (hn : 0 < n)
    (hunsent : s.unsent = []) (hless : s.received.length < s.sent) :
    (∃ t, Moves p seed s .receive t) ∨
      ∃ move t, move.isWork = true ∧ Moves p seed s move t := by
  have hmore : s.isComplete = false := by
    rw [← Bool.not_eq_true, isComplete_iff]
    omega
  have hbalance := hs.balance
  cases hanswers : s.answers with
  | cons answer rest => exact .inl ⟨_, .receive hunsent hanswers hless⟩
  | nil =>
      refine .inr ?_
      by_cases hidle : ∀ phase ∈ s.workers, phase.holds = false
      · have hheld : s.held = 0 :=
          List.countP_eq_zero.mpr fun phase hphase =>
            Bool.eq_false_iff.mp (hidle phase hphase)
        -- What is missing is in the queue, for nobody else has it.
        cases hqueue : s.queue with
        | cons job rest =>
            exact hs.exists_take hn (hs.isOpen_of_not_isComplete hmore) hidle
              hqueue
        | nil =>
            rw [hanswers, hheld, hqueue] at hbalance
            exact absurd hbalance (Nat.ne_of_gt hless)
      · simp only [not_forall, Bool.not_eq_false] at hidle
        obtain ⟨phase, hphase, hholds⟩ := hidle
        obtain ⟨worker, hworker⟩ := List.mem_iff_getElem?.mp hphase
        exact exists_work_of_holds hworker hholds

/-- A run that is not complete can go on. -/
theorem Sound.exists_move (hs : s.Sound p seed n) (hn : 0 < n)
    (h : s.isComplete = false) : ∃ move t, Moves p seed s move t := by
  cases hunsent : s.unsent with
  | cons job rest => exact ⟨_, _, .send hunsent⟩
  | nil =>
      have hless : s.received.length < s.sent := by
        have hbalance := hs.balance
        have hmissing : s.received.length ≠ s.sent := fun hall => by
          cases h.symm.trans (isComplete_iff.mpr ⟨hunsent, hall⟩)
        omega
      obtain ⟨t, hmove⟩ | ⟨move, t, -, hmove⟩ :=
        hs.receives_or_works hn hunsent hless
      · exact ⟨_, t, hmove⟩
      · exact ⟨move, t, hmove⟩

end PoolState

end CarrierTransport
