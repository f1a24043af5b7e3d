import CarrierTransport.Vec3

/-!
# Embedded Runge-Kutta steps

A position is carried along a velocity field by a pair of methods of orders four
and five that share their stages.  The step is that of order five, and the
difference of the two estimates its error.
-/

namespace CarrierTransport

inductive Scheme where
  | fehlberg
  | cashKarp
  deriving DecidableEq, Repr

def Scheme.name : Scheme → String
  | fehlberg => "Fehlberg"
  | cashKarp => "CashKarp"

/-- Each stage has a node, the fraction of the timestep at which it is taken,
and weights of the stages before it. -/
structure Tableau (α : Type) where
  stages : List (α × List α)
  high : List α
  low : List α

namespace Tableau

variable {α : Type} [Arithmetic α]

def fehlberg : Tableau α where
  stages :=
    [(0.0, []),
     (1.0 / 4.0, [1.0 / 4.0]),
     (3.0 / 8.0, [3.0 / 32.0, 9.0 / 32.0]),
     (12.0 / 13.0, [1932.0 / 2197.0, -7200.0 / 2197.0, 7296.0 / 2197.0]),
     (1.0, [439.0 / 216.0, -8.0, 3680.0 / 513.0, -845.0 / 4104.0]),
     (1.0 / 2.0, [-8.0 / 27.0, 2.0, -3544.0 / 2565.0, 1859.0 / 4104.0,
       -11.0 / 40.0])]
  high := [16.0 / 135.0, 0.0, 6656.0 / 12825.0, 28561.0 / 56430.0,
    -9.0 / 50.0, 2.0 / 55.0]
  low := [25.0 / 216.0, 0.0, 1408.0 / 2565.0, 2197.0 / 4104.0, -1.0 / 5.0, 0.0]

def cashKarp : Tableau α where
  stages :=
    [(0.0, []),
     (1.0 / 5.0, [1.0 / 5.0]),
     (3.0 / 10.0, [3.0 / 40.0, 9.0 / 40.0]),
     (3.0 / 5.0, [3.0 / 10.0, -9.0 / 10.0, 6.0 / 5.0]),
     (1.0, [-11.0 / 54.0, 5.0 / 2.0, -70.0 / 27.0, 35.0 / 27.0]),
     (7.0 / 8.0, [1631.0 / 55296.0, 175.0 / 512.0, 575.0 / 13824.0,
       44275.0 / 110592.0, 253.0 / 4096.0])]
  high := [37.0 / 378.0, 0.0, 250.0 / 621.0, 125.0 / 594.0, 0.0,
    512.0 / 1771.0]
  low := [2825.0 / 27648.0, 0.0, 18575.0 / 48384.0, 13525.0 / 55296.0,
    277.0 / 14336.0, 1.0 / 4.0]

def ofScheme : Scheme → Tableau α
  | .fehlberg => fehlberg
  | .cashKarp => cashKarp

end Tableau

/-- The position of a carrier, the time since its start and the timestep of its
next step. -/
structure Motion (α : Type) where
  position : Vec3 α
  time : α
  timestep : α

/-- What a step has done.  The timestep is carried over as it was. -/
structure Increment (α : Type) where
  after : Motion α
  step : Vec3 α
  error : Vec3 α

namespace Motion

variable {α : Type} [Arithmetic α]

def start (position : Vec3 α) (timestep : α) : Motion α :=
  ⟨position, 0.0, timestep⟩

def wait (m : Motion α) (delay : α) : Motion α :=
  { m with time := m.time + delay }

def combine (weights : List α) (vectors : List (Vec3 α)) : Vec3 α :=
  (weights.zip vectors).foldl (fun sum (w, v) => sum + w • v) .zero

variable {m : Type → Type} [Monad m]

/-- The displacements of the stages, in order.  A stage is taken at its node
after the stages before it have moved the position. -/
def stages (velocity : α → Vec3 α → m (Vec3 α)) (motion : Motion α) :
    List (α × List α) → List (Vec3 α) → m (List (Vec3 α))
  | [], taken => pure taken
  | (node, weights) :: rest, taken => do
      let v ← velocity (motion.time + node * motion.timestep)
        (motion.position + combine weights taken)
      stages velocity motion rest (taken ++ [motion.timestep • v])

def advance (tableau : Tableau α) (velocity : α → Vec3 α → m (Vec3 α))
    (motion : Motion α) : m (Increment α) := do
  let taken ← stages velocity motion tableau.stages []
  let high := combine tableau.high taken
  let low := combine tableau.low taken
  return {
    after := ⟨motion.position + high, motion.time + motion.timestep,
      motion.timestep⟩
    step := high
    error := high - low }

end Motion

end CarrierTransport
