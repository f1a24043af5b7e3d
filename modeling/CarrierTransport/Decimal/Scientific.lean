import CarrierTransport.Decimal.Digits
import CarrierTransport.Scalar.Double

/-!
# Doubles with a fixed number of significant digits

The exact value is rounded to the last digit, a half going to the even one.  It
is written as one digit, a point, the other digits, `e` and the exponent.
-/

namespace CarrierTransport.Decimal

/-- The leading digits of `num / den` as a whole number of `digits` digits, and
the exponent of the first of them. -/
def leadingDigits (digits num den : Nat) : Nat × Int :=
  let e := leadingExponent num den
  let k := Int.ofNat digits - 1 - e
  let rounded := roundEven (scaledNum num k) (scaledDen den k)
  if rounded == tenPower digits then (tenPower (digits - 1), e + 1)
  else (rounded, e)

/-- A double with `digits` significant digits; a zero of either sign is `0`. -/
def scientific (digits : Nat) (x : Double) : String :=
  match x.exact with
  | .nan _ => "NaN"
  | .infinite negative => signText negative ++ "inf"
  | .finite negative significand exponent =>
      if significand == 0 then "0"
      else
        let (mantissa, e) :=
          leadingDigits digits (Binary64.numerator significand exponent)
            (Binary64.denominator exponent)
        let place := tenPower (digits - 1)
        signText negative ++ toString (mantissa / place) ++ "." ++
          padded (digits - 1) (mantissa % place) ++ "e" ++ toString e

end CarrierTransport.Decimal
