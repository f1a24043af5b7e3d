/-!
# The exact value of a double

A finite double is a whole number times a power of two.  Everything the library
decides about the digits of a double, its whole part and its nearest whole
number, is decided on that exact value and never on a rounded one.
-/

namespace CarrierTransport

/-- What a double stands for: `± significand * 2 ^ exponent` when it is finite.
What is not a number has a sign too. -/
inductive Binary64 where
  | nan (negative : Bool)
  | infinite (negative : Bool)
  | finite (negative : Bool) (significand : Nat) (exponent : Int)
  deriving DecidableEq, Repr

namespace Binary64

/-- The place of the leading bit of a significand, above the fraction. -/
def leadingBit : Nat := 1 <<< 52

def ofBits (bits : UInt64) : Binary64 :=
  let word := bits.toNat
  let negative := word >>> 63 == 1
  let field := (word >>> 52) % 2048
  let fraction := word % leadingBit
  if field == 2047 then
    if fraction == 0 then .infinite negative else .nan negative
  else if field == 0 then
    .finite negative fraction (-1074)
  else
    .finite negative (leadingBit + fraction) (Int.ofNat field - 1075)

def ofFloat (x : Float) : Binary64 := ofBits x.toBits

def isNegative : Binary64 → Bool
  | nan negative => negative
  | infinite negative => negative
  | finite negative _ _ => negative

/-- The numerator of `significand * 2 ^ exponent` as a fraction. -/
def numerator (significand : Nat) (exponent : Int) : Nat :=
  significand <<< exponent.toNat

/-- The denominator of `significand * 2 ^ exponent` as a fraction. -/
def denominator (exponent : Int) : Nat := 1 <<< (-exponent).toNat

/-- A whole number above every finite double. -/
def beyondFinite : Nat := 1 <<< 1024

/-- The whole part of a positive value; zero for all others. -/
def wholePart : Binary64 → Nat
  | nan _ | infinite true | finite true _ _ => 0
  | infinite false => beyondFinite
  | finite false significand exponent =>
      numerator significand exponent / denominator exponent

/-- The nearest whole number to a positive value, a half going up; zero for all
others. -/
def nearest : Binary64 → Nat
  | nan _ | infinite true | finite true _ _ => 0
  | infinite false => beyondFinite
  | finite false significand exponent =>
      (2 * numerator significand exponent + denominator exponent) /
        (2 * denominator exponent)

end Binary64

end CarrierTransport
