import CarrierTransport.Journal.Notice
import CarrierTransport.Units

/-!
# Totals

Each event has a summary, and a run adds the summaries of its events up.  The
counters of a run are 64-bit words that wrap around; each is added to on its
own, so that several workers may add at once.
-/

namespace CarrierTransport

variable {α : Type} [Scalar α]

structure EventSummary (α : Type) where
  /-- Carriers before any gain. -/
  propagatedCharge : Nat
  recombinedCharge : Nat
  trappedCharge : Nat
  chargeGroups : Nat
  integrationSteps : Nat
  /-- The sum over the groups of their size times their time. -/
  weightedTime : α
  deposits : Nat
  skippedDeposits : Nat
  coarsenedDeposits : Nat
  deriving DecidableEq, Repr

namespace EventSummary

def zero : EventSummary α := ⟨0, 0, 0, 0, 0, 0.0, 0, 0, 0⟩

def averageTime (s : EventSummary α) : α :=
  s.weightedTime / Scalar.ofNat (max s.propagatedCharge 1)

def notices (s : EventSummary α) : List (Notice α) :=
  [.eventPropagated s.propagatedCharge s.chargeGroups s.integrationSteps
      s.averageTime,
    .eventRecombined s.recombinedCharge,
    .eventTrapped s.trappedCharge]

end EventSummary

inductive Counter where
  | events
  | propagatedCharge
  | recombinedCharge
  | trappedCharge
  | chargeGroups
  | integrationSteps
  | totalTimePs
  | deposits
  | skippedDeposits
  | coarsenedDeposits
  deriving DecidableEq, Repr

structure RunTotals where
  events : UInt64
  propagatedCharge : UInt64
  recombinedCharge : UInt64
  trappedCharge : UInt64
  chargeGroups : UInt64
  integrationSteps : UInt64
  /-- The sum over the carriers of their times, in picoseconds. -/
  totalTimePs : UInt64
  deposits : UInt64
  skippedDeposits : UInt64
  coarsenedDeposits : UInt64
  deriving DecidableEq, Repr

def wordMax : Nat := UInt64.size - 1

/-- A time in whole picoseconds, as large as a word can be. -/
def wholePs (time : α) : UInt64 :=
  (min (Scalar.nearest (time / Units.ps)) wordMax).toUInt64

/-- What a summary adds to which counter, in the order of the additions. -/
def EventSummary.additions (s : EventSummary α) : List (Counter × UInt64) :=
  [(.events, 1),
    (.propagatedCharge, s.propagatedCharge.toUInt64),
    (.recombinedCharge, s.recombinedCharge.toUInt64),
    (.trappedCharge, s.trappedCharge.toUInt64),
    (.chargeGroups, s.chargeGroups.toUInt64),
    (.integrationSteps, s.integrationSteps.toUInt64),
    (.totalTimePs, wholePs s.weightedTime),
    (.deposits, s.deposits.toUInt64),
    (.skippedDeposits, s.skippedDeposits.toUInt64),
    (.coarsenedDeposits, s.coarsenedDeposits.toUInt64)]

namespace RunTotals

def zero : RunTotals := ⟨0, 0, 0, 0, 0, 0, 0, 0, 0, 0⟩

def get (t : RunTotals) : Counter → UInt64
  | .events => t.events
  | .propagatedCharge => t.propagatedCharge
  | .recombinedCharge => t.recombinedCharge
  | .trappedCharge => t.trappedCharge
  | .chargeGroups => t.chargeGroups
  | .integrationSteps => t.integrationSteps
  | .totalTimePs => t.totalTimePs
  | .deposits => t.deposits
  | .skippedDeposits => t.skippedDeposits
  | .coarsenedDeposits => t.coarsenedDeposits

def add (t : RunTotals) (counter : Counter) (n : UInt64) : RunTotals :=
  match counter with
  | .events => { t with events := t.events + n }
  | .propagatedCharge => { t with propagatedCharge := t.propagatedCharge + n }
  | .recombinedCharge => { t with recombinedCharge := t.recombinedCharge + n }
  | .trappedCharge => { t with trappedCharge := t.trappedCharge + n }
  | .chargeGroups => { t with chargeGroups := t.chargeGroups + n }
  | .integrationSteps => { t with integrationSteps := t.integrationSteps + n }
  | .totalTimePs => { t with totalTimePs := t.totalTimePs + n }
  | .deposits => { t with deposits := t.deposits + n }
  | .skippedDeposits => { t with skippedDeposits := t.skippedDeposits + n }
  | .coarsenedDeposits =>
      { t with coarsenedDeposits := t.coarsenedDeposits + n }

theorem get_add (t : RunTotals) (a b : Counter) (n : UInt64) :
    (t.add a n).get b = if a = b then t.get b + n else t.get b := by
  cases a <;> cases b <;> rfl

def record (t : RunTotals) (s : EventSummary α) : RunTotals :=
  s.additions.foldl (fun t (counter, n) => t.add counter n) t

def averageTime (t : RunTotals) : α :=
  Scalar.ofNat t.totalTimePs.toNat * Units.ps /
    Scalar.ofNat (max t.propagatedCharge.toNat 1)

/-- The percentage of deposits whose groups had to be made larger. -/
def coarsenedPercentage (t : RunTotals) : α :=
  Scalar.ofNat t.coarsenedDeposits.toNat * 100.0 /
    Scalar.ofNat t.deposits.toNat

def notices (t : RunTotals) (chargePerStep maxGroups : UInt32) :
    List (Notice α) :=
  [.runPropagated t.propagatedCharge t.chargeGroups t.integrationSteps
      t.averageTime] ++
  (if 0 < t.deposits then
    [.runCoarsened t.coarsenedPercentage maxGroups chargePerStep]
  else []) ++
  (if 0 < t.skippedDeposits then [.runSkipped t.skippedDeposits] else [])

end RunTotals

end CarrierTransport
