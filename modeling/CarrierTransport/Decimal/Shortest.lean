import CarrierTransport.Decimal.Digits
import CarrierTransport.Scalar.Double

/-!
# The fewest digits that read back

A double is the nearest double to every number of an interval around it.  The
shortest text is the decimal number of fewest digits in that interval, and among
those the nearest to the double; of two at the same distance it is the larger
one.  It is written without an exponent.
-/

namespace CarrierTransport.Decimal

/-- The numbers that read back as one double, as fractions with a common
denominator.  The ends belong to it when `closed`. -/
structure Interval where
  low : Nat
  value : Nat
  high : Nat
  den : Nat
  closed : Bool

/-- The interval of a positive double.  Below a power of two the doubles are
twice as dense, so the lower half-gap is half as wide. -/
def readingInterval (significand : Nat) (exponent : Int) : Interval :=
  let below :=
    if significand == Binary64.leadingBit && exponent != -1074 then 1 else 2
  let e := exponent - 2
  ⟨Binary64.numerator (4 * significand - below) e,
    Binary64.numerator (4 * significand) e,
    Binary64.numerator (4 * significand + 2) e,
    Binary64.denominator e,
    significand % 2 == 0⟩

def Interval.holds (i : Interval) (k : Int) (digits : Nat) : Bool :=
  let x := scaledDen i.den k * digits
  let low := scaledNum i.low k
  let high := scaledNum i.high k
  if i.closed then low ≤ x && x ≤ high else low < x && x < high

/-- The number of the grid `10 ^ (-k)` that lies in the interval and is nearest
to its value, a half going up. -/
def Interval.nearestOnGrid? (i : Interval) (k : Int) : Option Nat :=
  let num := scaledNum i.value k
  let den := scaledDen i.den k
  let below := num / den
  let above := below + 1
  match i.holds k below, i.holds k above with
  | false, false => none
  | true, false => some below
  | false, true => some above
  | true, true => some (roundHalfUp num den)

/-- The first of the grids `10 ^ (-k)`, `10 ^ (-k - 1)`, … with a number in the
interval, that number and its grid. -/
def Interval.shortest (i : Interval) : Nat → Int → Nat × Int
  | 0, k => (roundHalfUp (scaledNum i.value k) (scaledDen i.den k), k)
  | fuel + 1, k =>
      match i.nearestOnGrid? k with
      | some digits => (digits, k)
      | none => i.shortest fuel (k + 1)

/-- `digits * 10 ^ (-k)` without an exponent and without idle zeros. -/
def positional (digits : Nat) (k : Int) : String :=
  if k ≤ 0 then
    toString (digits * tenPower (-k).toNat)
  else
    let places := k.toNat
    let whole := toString (digits / tenPower places)
    let rest := padded places (digits % tenPower places)
    let kept := (rest.toList.reverse.dropWhile (· == '0')).reverse
    if kept.isEmpty then whole else whole ++ "." ++ String.ofList kept

/-- The shortest text of a double. -/
def shortest (x : Double) : String :=
  match x.exact with
  | .nan _ => "NaN"
  | .infinite negative => signText negative ++ "inf"
  | .finite negative significand exponent =>
      if significand == 0 then signText negative ++ "0"
      else
        let interval := readingInterval significand exponent
        let e := leadingExponent interval.value interval.den
        let (digits, k) := interval.shortest 17 (-e)
        signText negative ++ positional digits k

end CarrierTransport.Decimal
