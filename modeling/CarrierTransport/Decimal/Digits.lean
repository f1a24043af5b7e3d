/-!
# Decimal digits

Rounding a fraction to a whole number, and writing whole numbers at a decimal
place.  The printers of doubles are made from these.
-/

namespace CarrierTransport.Decimal

/-- The whole number nearest to `num / den`, a half going to the even one. -/
def roundEven (num den : Nat) : Nat :=
  let q := num / den
  let r := num % den
  if 2 * r < den then q
  else if den < 2 * r then q + 1
  else if q % 2 == 0 then q else q + 1

/-- The whole number nearest to `num / den`, a half going up. -/
def roundHalfUp (num den : Nat) : Nat := (2 * num + den) / (2 * den)

/-- The digits of `n`, with zeros in front up to `width`. -/
def padded (width n : Nat) : String :=
  let digits := toString n
  "".pushn '0' (width - digits.length) ++ digits

def tenPower (n : Nat) : Nat := Nat.pow 10 n

/-- The numerator of `num / den * 10 ^ k` over `scaledDen`. -/
def scaledNum (num : Nat) (k : Int) : Nat := num * tenPower k.toNat

/-- The denominator of `num / den * 10 ^ k` under `scaledNum`. -/
def scaledDen (den : Nat) (k : Int) : Nat := den * tenPower (-k).toNat

def powerLE (num den : Nat) (e : Int) : Bool :=
  scaledDen den (-e) ≤ scaledNum num (-e)

/-- The exponent of the leading digit of `num / den`, both positive: the `e`
with `10 ^ e ≤ num / den < 10 ^ (e + 1)`.  Binary lengths give it up to one. -/
def leadingExponent (num den : Nat) : Int :=
  let bits := Int.ofNat num.log2 - Int.ofNat den.log2
  let guess := (bits - 1) * 30103 / 100000
  if powerLE num den (guess + 1) then guess + 1
  else if powerLE num den guess then guess
  else guess - 1

def signText (negative : Bool) : String := if negative then "-" else ""

end CarrierTransport.Decimal
