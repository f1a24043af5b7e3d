import CarrierTransport.Random.ChaCha
import CarrierTransport.Run.Event

/-!
# Pools

A pool carries many events with the same propagation.  Every event draws from
the stream of its own number under the seed of the pool, so its result depends
neither on the worker that carries it nor on the other events.  An event that
fails is dropped; it adds nothing to the totals.
-/

namespace CarrierTransport

variable {α ε : Type} [Scalar α]

structure Job (α : Type) where
  event : EventId
  deposits : List (Deposit α)

structure EventResult (α : Type) where
  event : EventId
  output : EventOutput α

structure Pool (α : Type) where
  propagation : Propagation α
  seed : UInt64
  workers : Nat
  totals : RunTotals

def eventSource (seed : UInt64) (event : EventId) : ChaCha8 :=
  .ofSeed seed event.val

/-- A number of workers that was asked for, between one and 64. -/
def resolvedWorkers (asked : Nat) : Nat := max 1 (min asked 64)

/-- What a worker answers: the number of the event, and its output unless it
failed. -/
abbrev EventAnswer (α : Type) := EventId × Option (EventOutput α)

/-- The answer to a job, whichever worker gives it. -/
def Job.answer (p : Propagation α) (seed : UInt64) (job : Job α) :
    EventAnswer α :=
  let (result, _) :=
    (p.carryEvent ampleSteps job.deposits
      (eventSource seed job.event)).runFrom none
  (job.event, result.toOption.map (·.output))

namespace Pool

/-- A pool with no events in it.  Trajectories are recorded by one worker
only. -/
def start (p : Propagation α) (seed : UInt64) (asked : Nat) :
    Logged α ε (Pool α) := do
  if p.config.outputTrajectories then
    Logged.log .trajectoriesForbidParallel
  let workers :=
    if p.config.outputTrajectories then 1 else resolvedWorkers asked
  Logged.log (.workersStarted workers)
  return ⟨p, seed, workers, .zero⟩

def results (answers : List (EventAnswer α)) :
    List (EventResult α) :=
  answers.filterMap fun (event, output) => output.map (⟨event, ·⟩)

def lossNotices (answers : List (EventAnswer α)) :
    List (Notice α) :=
  let failed := answers.filter (·.2.isNone)
  failed.map (fun (event, _) => .eventFailed event.val) ++
    if failed.isEmpty then []
    else [.eventsLost failed.length answers.length]

def tally (totals : RunTotals) (results : List (EventResult α)) : RunTotals :=
  results.foldl (fun totals result => totals.record result.output.summary)
    totals

/-- Results in the order of their events; those of one event stay in the order
in which they were answered. -/
def inOrder (results : List (EventResult α)) : List (EventResult α) :=
  results.mergeSort fun a b => a.event ≤ b.event

/-- How long an event keeps its worker, in integration steps.  One that fails
counts for nothing. -/
def duration : EventAnswer α → Nat
  | (_, none) => 0
  | (_, some output) => output.summary.integrationSteps

/-- Events that are under way, with the times at which they end, in the order of
their ends. -/
abbrev UnderWay (α : Type) := List (Nat × EventAnswer α)

/-- One more event, behind those that end no later. -/
def begin (ending : Nat) (answer : EventAnswer α) : UnderWay α → UnderWay α
  | [] => [(ending, answer)]
  | first :: others =>
      if first.1 ≤ ending then first :: begin ending answer others
      else (ending, answer) :: first :: others

/-- The answers to the events under way and to those that wait, of which the
next begins whenever one ends. -/
def answersInTurn : UnderWay α → List (EventAnswer α) → List (EventAnswer α)
  | underWay, [] => underWay.map (·.2)
  | [], waiting => waiting
  | (time, answer) :: underWay, next :: waiting =>
      answer ::
        answersInTurn (begin (time + duration next) next underWay) waiting

/-- The answers to jobs in the order in which the workers give them. -/
def inEndingOrder (workers : Nat) (answers : List (EventAnswer α)) :
    List (EventAnswer α) :=
  let underWay := (answers.take workers).foldl
    (fun underWay answer => begin (duration answer) answer underWay) []
  answersInTurn underWay (answers.drop workers)

/-- A run of jobs.  The order in which their events end shows in the order of
the results of one event only. -/
def run (pool : Pool α) (jobs : List (Job α)) :
    Logged α ε (List (EventResult α) × Pool α) := do
  let answers := inEndingOrder pool.workers
    (jobs.map (Job.answer pool.propagation pool.seed))
  (lossNotices answers).forM Logged.log
  let results := results answers
  return (inOrder results, { pool with totals := tally pool.totals results })

def finish (pool : Pool α) : Logged α ε RunTotals := do
  let config := pool.propagation.config
  (pool.totals.notices config.chargePerStep
    config.maxChargeGroups).forM Logged.log
  return pool.totals

end Pool

end CarrierTransport
