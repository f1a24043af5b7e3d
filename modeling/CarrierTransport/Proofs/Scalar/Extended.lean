import CarrierTransport.Proofs.Scalar.Real
import CarrierTransport.Scalar.Binary64

/-!
# Exact arithmetic with infinities

The real numbers as scalars in which a quotient by zero is infinite, as it is
for doubles.  Nothing is rounded.  What never decays has an infinite lifetime
here, while `1 / 0` is zero among the reals.  There is one zero and it counts as
positive.
-/

namespace CarrierTransport

inductive Extended where
  | number (value : ℝ)
  | infinite (negative : Bool)
  | undefined

namespace Extended

noncomputable section

def neg : Extended → Extended
  | number x => number (-x)
  | infinite m => infinite (!m)
  | undefined => undefined

def add : Extended → Extended → Extended
  | number x, number y => number (x + y)
  | infinite m, infinite n => if m = n then infinite m else undefined
  | infinite m, number _ | number _, infinite m => infinite m
  | undefined, _ | _, undefined => undefined

def mul : Extended → Extended → Extended
  | number x, number y => number (x * y)
  | infinite m, infinite n => infinite (m ^^ n)
  | infinite m, number x | number x, infinite m =>
      if x = 0 then undefined else infinite (m ^^ decide (x < 0))
  | undefined, _ | _, undefined => undefined

def div : Extended → Extended → Extended
  | number x, number y =>
      if y ≠ 0 then number (x / y)
      else if x = 0 then undefined
      else infinite (x < 0)
  | number _, infinite _ => number 0
  | infinite m, number y => infinite (m ^^ decide (y < 0))
  | infinite _, infinite _ => undefined
  | undefined, _ | _, undefined => undefined

instance : Arithmetic Extended where
  add := add
  sub x y := x.add y.neg
  neg := neg
  mul := mul
  div := div
  ofScientific mantissa sign exponent :=
    number (OfScientific.ofScientific mantissa sign exponent)

def LessThan : Extended → Extended → Prop
  | number x, number y => x < y
  | infinite m, infinite n => m = true ∧ n = false
  | infinite m, number _ => m = true
  | number _, infinite n => n = false
  | undefined, _ | _, undefined => False

def AtMost : Extended → Extended → Prop
  | number x, number y => x ≤ y
  | infinite m, infinite n => m = true ∨ n = false
  | infinite m, number _ => m = true
  | number _, infinite n => n = false
  | undefined, _ | _, undefined => False

def equals : Extended → Extended → Bool
  | number x, number y => x = y
  | infinite m, infinite n => m == n
  | _, _ => false

def abs : Extended → Extended
  | number x => number |x|
  | infinite _ => infinite false
  | undefined => undefined

def sqrt : Extended → Extended
  | number x => if x < 0 then undefined else number √x
  | infinite false => infinite false
  | _ => undefined

def exp : Extended → Extended
  | number x => number (Real.exp x)
  | infinite true => number 0
  | infinite false => infinite false
  | undefined => undefined

def ln : Extended → Extended
  | number x =>
      if x < 0 then undefined
      else if x = 0 then infinite true
      else number (Real.log x)
  | infinite false => infinite false
  | _ => undefined

def tanh : Extended → Extended
  | number x => number (Real.tanh x)
  | infinite m => number (if m then -1 else 1)
  | undefined => undefined

/-- Powers of infinities and of numbers below zero are left out. -/
def power : Extended → Extended → Extended
  | number x, number y =>
      if x < 0 then undefined
      else if x = 0 ∧ y < 0 then infinite false
      else number (x ^ y)
  | _, _ => undefined

instance : Scalar Extended where
  lt := LessThan
  le := AtMost
  beq := equals
  decLT x y := Classical.propDecidable (x.LessThan y)
  decLE x y := Classical.propDecidable (x.AtMost y)
  ofNat n := number n
  abs := abs
  sqrt := sqrt
  exp := exp
  ln := ln
  tanh := tanh
  power := power
  isFinite
    | number _ => true
    | _ => false
  isNegative
    | number x => x < 0
    | infinite m => m
    | undefined => false
  wholePart
    | number x => Scalar.wholePart x
    | infinite false => Binary64.beyondFinite
    | _ => 0
  nearest
    | number x => Scalar.nearest x
    | infinite false => Binary64.beyondFinite
    | _ => 0

end

/-! ## Numbers -/

section Numbers

variable {x y : ℝ}

@[simp] theorem ofScientific_eq (mantissa : Nat) (sign : Bool)
    (exponent : Nat) :
    (OfScientific.ofScientific mantissa sign exponent : Extended) =
      number (OfScientific.ofScientific mantissa sign exponent) := rfl

@[simp] theorem number_add : number x + number y = number (x + y) := rfl

@[simp] theorem number_sub : number x - number y = number (x - y) :=
  congrArg number (sub_eq_add_neg x y).symm

@[simp] theorem number_neg : -number x = number (-x) := rfl

@[simp] theorem number_mul : number x * number y = number (x * y) := rfl

@[simp] theorem number_lt_number : number x < number y ↔ x < y := Iff.rfl

@[simp] theorem number_le_number : number x ≤ number y ↔ x ≤ y := Iff.rfl

@[simp] theorem number_le_infinite : number x ≤ infinite false := rfl

@[simp] theorem abs_number : Scalar.abs (number x) = number |x| := rfl

@[simp] theorem exp_number :
    Scalar.exp (number x) = number (Real.exp x) := rfl

@[simp] theorem exp_infinite :
    Scalar.exp (infinite true) = number 0 := rfl

@[simp] theorem tanh_number :
    Scalar.tanh (number x) = number (Real.tanh x) := rfl

theorem number_div (h : y ≠ 0) : number x / number y = number (x / y) :=
  if_pos h

theorem power_number (h : 0 < x) :
    Scalar.power (number x) (number y) = number (x ^ y) := by
  change power (number x) (number y) = _
  simp [power, h.le.not_gt, h.ne']

theorem number_div_zero (h : x ≠ 0) :
    number x / number 0 = infinite (x < 0) := by
  change (if (0 : ℝ) ≠ 0 then _ else if x = 0 then _ else _) = _
  simp [h]

@[simp] theorem number_div_infinite (m : Bool) :
    number x / infinite m = number 0 := rfl

theorem exists_number_of_isFinite {x : Extended}
    (h : Scalar.isFinite x = true) : ∃ value, x = number value := by
  cases x with
  | number value => exact ⟨value, rfl⟩
  | infinite | undefined => cases h

end Numbers

/-! ## Units -/

section Units

open CarrierTransport.Units

@[simp] theorem ns_eq : (ns : Extended) = number ns := rfl

@[simp] theorem s_eq : (s : Extended) = number s := rfl

@[simp] theorem cm_eq : (cm : Extended) = number cm := rfl

@[simp] theorem volt_eq : (volt : Extended) = number volt := rfl

@[simp] theorem electronvolt_eq :
    (electronvolt : Extended) = number electronvolt := rfl

@[simp] theorem perCm3_eq : (perCm3 : Extended) = number perCm3 := by
  have hcm := cm_pos
  have hvolume : (cm * cm * cm : ℝ) ≠ 0 := by positivity
  simp [perCm3, number_div hvolume]

@[simp] theorem boltzmann_eq :
    (boltzmann : Extended) = number boltzmann := by
  have hkelvin : (kelvin : ℝ) ≠ 0 := by norm_num [kelvin]
  have hkelvin' : (kelvin : Extended) = number kelvin := rfl
  simp [boltzmann, hkelvin', number_div hkelvin]

end Units

end Extended

/-! ## Parameters -/

namespace Parameters

open Extended (number)

variable {model parameter : String} {given : Option Extended}
variable {value : Extended}

theorem exists_number_of_require
    (h : require model parameter given = .ok value) :
    ∃ x, value = number x := by
  unfold require at h
  split at h
  · cases h
  · split at h
    · rename_i hfinite
      cases h
      exact Extended.exists_number_of_isFinite hfinite
    · cases h

theorem exists_pos_of_requirePositive
    (h : requirePositive model parameter given = .ok value) :
    ∃ x, 0 < x ∧ value = number x := by
  obtain ⟨found, hfound, h⟩ := bind_eq_ok.mp h
  obtain ⟨x, rfl⟩ := exists_number_of_require hfound
  split at h
  · cases h
  · rename_i hpositive
    cases h
    refine ⟨x, ?_, rfl⟩
    rw [Extended.ofScientific_eq, Extended.number_le_number, not_le]
      at hpositive
    norm_num at hpositive
    exact hpositive

theorem exists_pos_of_requirePair {given : PerCarrier (Option Extended)}
    {pair : PerCarrier Extended}
    (h : requirePair model parameter given = .ok pair) (carrier : Carrier) :
    ∃ x, 0 < x ∧ pair.get carrier = number x := by
  obtain ⟨electron, helectron, h⟩ := bind_eq_ok.mp h
  obtain ⟨hole, hhole, h⟩ := bind_eq_ok.mp h
  cases h
  cases carrier with
  | electron => exact exists_pos_of_requirePositive helectron
  | hole => exact exists_pos_of_requirePositive hhole

theorem exists_nonneg_of_requireFluence
    (h : requireFluence model given = .ok value) :
    ∃ x, 0 ≤ x ∧ value = number x := by
  obtain ⟨found, hfound, h⟩ := bind_eq_ok.mp h
  obtain ⟨x, rfl⟩ := exists_number_of_require hfound
  split at h
  · cases h
  · rename_i hnonneg
    cases h
    refine ⟨x, ?_, rfl⟩
    rw [Extended.ofScientific_eq, Extended.number_lt_number, not_lt] at hnonneg
    norm_num at hnonneg
    exact hnonneg

theorem requireFluence_number {x : ℝ} (h : 0 ≤ x) :
    requireFluence model (some (number x)) = .ok (number x) := by
  have hnonneg : ¬number x < 0.0 := by
    rw [Extended.ofScientific_eq, Extended.number_lt_number, not_lt]
    norm_num
    exact h
  exact if_neg hnonneg

end Parameters

end CarrierTransport
