import CarrierTransport.Decimal.Digits
import CarrierTransport.Scalar.Double

/-!
# Doubles with a fixed number of places

The exact value is rounded to the last place, a half going to the even digit.
-/

namespace CarrierTransport.Decimal

/-- `num / den` with `places` digits after the point. -/
def fixedMagnitude (places num den : Nat) : String :=
  let scaled := roundEven (num * tenPower places) den
  let whole := toString (scaled / tenPower places)
  if places == 0 then whole
  else whole ++ "." ++ padded places (scaled % tenPower places)

/-- A double with `places` digits after the point. -/
def fixed (places : Nat) (x : Double) : String :=
  match x.exact with
  | .nan _ => "NaN"
  | .infinite negative => signText negative ++ "inf"
  | .finite negative significand exponent =>
      signText negative ++
        fixedMagnitude places (Binary64.numerator significand exponent)
          (Binary64.denominator exponent)

end CarrierTransport.Decimal
