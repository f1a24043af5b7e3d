import CarrierTransport.Run.Pool

/-!
# Schedules of a pool

The workers of a pool share a queue of jobs and a queue of answers.  A run sends
its jobs one after the other and then receives as many answers as it has sent.
All else happens in any order: which worker takes a job, how far it has come
with it, when it adds to which counter of the totals and when its answer is
received.  Between runs the pool may be closed, and a worker that finds it
closed with no job left goes.  A schedule is a list of moves, and every order of
the moves that are possible is a schedule.
-/

namespace CarrierTransport

variable {α : Type} [Scalar α]

inductive WorkerPhase (α : Type) where
  | idle
  | carrying (job : Job α)
  /-- The event is over, and these additions to the totals are left. -/
  | counting (result : EventResult α) (left : List (Counter × UInt64))
  | failed (event : EventId)
  | gone

structure PoolState (α : Type) where
  /-- Whether more jobs may be sent. -/
  isOpen : Bool
  /-- Jobs of the run that are not yet sent. -/
  unsent : List (Job α)
  /-- Jobs that no worker has taken, in the order in which they were sent. -/
  queue : List (Job α)
  workers : List (WorkerPhase α)
  /-- Answers that are not yet received, in the order in which they were
  given. -/
  answers : List (EventAnswer α)
  /-- Answers that the run has received, in that order. -/
  received : List (EventAnswer α)
  sent : Nat
  totals : RunTotals

/-- The moves of a run and of the workers, who are numbered. -/
inductive PoolMove where
  | send
  | take (worker : Nat)
  | carry (worker : Nat)
  | count (worker : Nat)
  | answer (worker : Nat)
  | receive
  | close
  | leave (worker : Nat)
  deriving DecidableEq, Repr

namespace WorkerPhase

/-- A worker once the event of its job is over.  The totals are added to only
after an event that did not fail. -/
def afterEvent : EventAnswer α → WorkerPhase α
  | (event, none) => failed event
  | (event, some output) => counting ⟨event, output⟩ output.summary.additions

/-- The answer of a worker that has nothing left to add. -/
def answer? : WorkerPhase α → Option (EventAnswer α)
  | counting result [] => some (result.event, some result.output)
  | failed event => some (event, none)
  | _ => none

end WorkerPhase

namespace PoolState

def start (workers : Nat) : PoolState α where
  isOpen := true
  unsent := []
  queue := []
  workers := List.replicate workers .idle
  answers := []
  received := []
  sent := 0
  totals := .zero

def isComplete (s : PoolState α) : Bool :=
  s.unsent.isEmpty && s.received.length == s.sent

/-- The results of a run that is complete. -/
def results (s : PoolState α) : List (EventResult α) :=
  Pool.inOrder (Pool.results s.received)

/-- The state at the beginning of a run, which cannot begin before the last one
is complete. -/
def beginRun? (s : PoolState α) (jobs : List (Job α)) : Option (PoolState α) :=
  if s.isOpen && s.isComplete then
    some { s with unsent := jobs, received := [], sent := 0 }
  else none

def setWorker (s : PoolState α) (worker : Nat) (phase : WorkerPhase α) :
    PoolState α :=
  { s with workers := s.workers.set worker phase }

def move? (p : Propagation α) (seed : UInt64) (s : PoolState α) :
    PoolMove → Option (PoolState α)
  | .send =>
      match s.unsent with
      | [] => none
      | job :: rest =>
          some { s with
            unsent := rest
            queue := s.queue ++ [job]
            sent := s.sent + 1 }
  | .take worker =>
      match s.workers[worker]?, s.queue with
      | some .idle, job :: rest =>
          some ({ s with queue := rest }.setWorker worker (.carrying job))
      | _, _ => none
  | .carry worker =>
      match s.workers[worker]? with
      | some (.carrying job) =>
          some (s.setWorker worker (.afterEvent (job.answer p seed)))
      | _ => none
  | .count worker =>
      match s.workers[worker]? with
      | some (.counting result ((counter, n) :: left)) =>
          some ({ s with totals := s.totals.add counter n }.setWorker worker
            (.counting result left))
      | _ => none
  | .answer worker =>
      match s.workers[worker]?.bind WorkerPhase.answer? with
      | some answer =>
          some ({ s with answers := s.answers ++ [answer] }.setWorker worker
            .idle)
      | none => none
  | .receive =>
      match s.unsent, s.answers with
      | [], answer :: rest =>
          if s.received.length < s.sent then
            some { s with
              answers := rest
              received := s.received ++ [answer] }
          else none
      | _, _ => none
  | .close =>
      if s.isOpen && s.isComplete then some { s with isOpen := false } else none
  | .leave worker =>
      match s.workers[worker]?, s.queue with
      | some .idle, [] =>
          if s.isOpen then none else some (s.setWorker worker .gone)
      | _, _ => none

/-- The state after a schedule, if each of its moves is possible in turn. -/
def follow? (p : Propagation α) (seed : UInt64) (s : PoolState α)
    (schedule : List PoolMove) : Option (PoolState α) :=
  schedule.foldlM (fun s move => s.move? p seed move) s

/-- The states of a pool after any sequence of runs under any schedule, with the
results that its complete runs have given. -/
inductive Reachable (p : Propagation α) (seed : UInt64) (workers : Nat) :
    PoolState α → List (EventResult α) → Prop
  | start : Reachable p seed workers (start workers) []
  | beginRun {s t : PoolState α} {given : List (EventResult α)}
      (jobs : List (Job α)) :
      Reachable p seed workers s given → s.beginRun? jobs = some t →
      Reachable p seed workers t (given ++ s.results)
  | move {s t : PoolState α} {given : List (EventResult α)}
      (move : PoolMove) :
      Reachable p seed workers s given → s.move? p seed move = some t →
      Reachable p seed workers t given

end PoolState

end CarrierTransport
