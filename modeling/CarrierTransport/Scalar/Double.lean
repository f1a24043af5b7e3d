import CarrierTransport.Scalar
import CarrierTransport.Scalar.Binary64

/-!
# Doubles as scalars

The numbers a run is made with.  Comparisons with a value that is not a number
are false.  Such a value has a sign all the same: an operation hands on that of
its operand, and one that has no answer for numbers gives a minus sign.  `Float`
does not tell this sign, so it is kept beside it.
-/

namespace CarrierTransport

structure Double where
  value : Float
  /-- Whether a value that is not a number has a minus sign; false for all
  others. -/
  nanNegative : Bool

namespace Double

/-- A double whose sign is plus if it is not a number. -/
def ofFloat (x : Float) : Double := ⟨x, false⟩

def exact (x : Double) : Binary64 :=
  if x.value.isNaN then .nan x.nanNegative else .ofFloat x.value

/-- A result under the sign that it has if it is not a number. -/
def signed (value : Float) (negative : Bool) : Double :=
  ⟨value, value.isNaN && negative⟩

def apply (f : Float → Float) (x : Double) : Double :=
  signed (f x.value) (!x.value.isNaN || x.nanNegative)

/-- Apply an operation of two operands; the first that is not a number hands on
its sign. -/
def apply₂ (f : Float → Float → Float) (x y : Double) : Double :=
  signed (f x.value y.value)
    (if x.value.isNaN then x.nanNegative
      else !y.value.isNaN || y.nanNegative)

/-- The opposite, also of a sign that is not one of a number. -/
def neg (x : Double) : Double := signed (-x.value) (!x.nanNegative)

def abs (x : Double) : Double := ofFloat x.value.abs

def ofNat (n : Nat) : Double :=
  ofFloat
    (if n < UInt64.size then n.toUInt64.toFloat
      else Float.ofScientific n false 0)

instance : Arithmetic Double where
  add := apply₂ (· + ·)
  sub := apply₂ (· - ·)
  mul := apply₂ (· * ·)
  div := apply₂ (· / ·)
  neg := neg
  ofScientific mantissa sign exponent :=
    ofFloat (Float.ofScientific mantissa sign exponent)

instance : Scalar Double where
  lt x y := x.value < y.value
  le x y := x.value ≤ y.value
  beq x y := x.value == y.value
  decLT x y := Float.decLt x.value y.value
  decLE x y := Float.decLe x.value y.value
  ofNat := ofNat
  abs := abs
  sqrt := apply Float.sqrt
  exp := apply Float.exp
  ln := apply Float.log
  tanh := apply Float.tanh
  power := apply₂ Float.pow
  isFinite x := x.value.isFinite
  isNegative x := x.exact.isNegative
  wholePart x := x.exact.wholePart
  nearest x := x.exact.nearest

end Double

end CarrierTransport
