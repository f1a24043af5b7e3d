/-!
# Scalars

The numbers that positions, times and fields are made of.  Every formula of the
library is written once over these classes.  A run uses doubles; a statement in
exact arithmetic uses the rationals or the reals.  The order of operations in a
formula is part of its meaning, because doubles round after each one.
-/

namespace CarrierTransport

class Arithmetic (α : Type) extends Add α, Sub α, Neg α, Mul α, Div α,
    OfScientific α

/-- Numbers with an order, roots, powers and exponentials. -/
class Scalar (α : Type) extends Arithmetic α, LT α, LE α, BEq α where
  decLT (a b : α) : Decidable (a < b)
  decLE (a b : α) : Decidable (a ≤ b)
  ofNat : Nat → α
  abs : α → α
  sqrt : α → α
  exp : α → α
  ln : α → α
  tanh : α → α
  power : α → α → α
  isFinite : α → Bool
  /-- Whether the sign is minus; a zero has a sign where zeros have signs. -/
  isNegative : α → Bool
  /-- The whole part of a positive number; zero for all others. -/
  wholePart : α → Nat
  /-- The nearest whole number to a positive number, a half going up; zero for
  all others. -/
  nearest : α → Nat

namespace Scalar

variable {α : Type} [Scalar α]

instance (a b : α) : Decidable (a < b) := decLT a b

instance (a b : α) : Decidable (a ≤ b) := decLE a b

/-- The smaller of two numbers; one that is not a number gives way. -/
def min (a b : α) : α :=
  if b < a then b else if a ≤ a then a else b

/-- The larger of two numbers; one that is not a number gives way. -/
def max (a b : α) : α :=
  if a < b then b else if a ≤ a then a else b

/-- `x` moved into `[low, high]`.  There is no answer unless the bounds are in
order; what is not a number stays as it is. -/
def clamp? (x low high : α) : Option α :=
  if low ≤ high then
    some (if x < low then low else if high < x then high else x)
  else
    none

end Scalar

end CarrierTransport
