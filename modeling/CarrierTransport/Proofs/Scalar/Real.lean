import Mathlib.Analysis.SpecialFunctions.Pow.Real
import Mathlib.Tactic.NormNum.OfScientific
import CarrierTransport.Proofs.Journal
import CarrierTransport.Proofs.Scalar.Order
import CarrierTransport.Random.WordSource
import CarrierTransport.Silicon.Parameters
import CarrierTransport.Units

/-!
# Exact arithmetic

The real numbers as scalars: nothing is rounded and every scalar is a number.
-/

namespace CarrierTransport

noncomputable instance : Arithmetic ℝ where
  toAdd := inferInstance
  toSub := inferInstance
  toNeg := inferInstance
  toMul := inferInstance
  toDiv := inferInstance
  toOfScientific := inferInstance

noncomputable instance : Scalar ℝ where
  toLT := inferInstance
  toLE := inferInstance
  beq x y := decide (x = y)
  decLT := Real.decidableLT
  decLE := Real.decidableLE
  ofNat n := n
  abs x := |x|
  sqrt := Real.sqrt
  exp := Real.exp
  ln := Real.log
  tanh := Real.tanh
  power x y := x ^ y
  isFinite _ := true
  isNegative x := decide (x < 0)
  wholePart x := ⌊x⌋₊
  nearest x := ⌊x + 1 / 2⌋₊

instance : OrderedScalar ℝ where
  le_trans := le_trans
  refl_left _ := le_rfl
  refl_right _ := le_rfl
  le_of_not_lt _ _ h := not_lt.mp h
  refl_shorter _ := le_rfl
  refl_longer _ := le_rfl

theorem decimal_zero : (0.0 : ℝ) = 0 := by norm_num

theorem decimal_one : (1.0 : ℝ) = 1 := by norm_num

theorem Scalar.min_eq (a b : ℝ) : Scalar.min a b = Min.min a b := by
  unfold Scalar.min
  split
  · rename_i hlt
    exact (min_eq_right hlt.le).symm
  · rename_i hle
    rw [if_pos le_rfl, min_eq_left (not_lt.mp hle)]

theorem Scalar.max_eq (a b : ℝ) : Scalar.max a b = Max.max a b := by
  unfold Scalar.max
  split
  · rename_i hlt
    exact (max_eq_right hlt.le).symm
  · rename_i hle
    rw [if_pos le_rfl, max_eq_left (not_lt.mp hle)]

theorem Scalar.clamp?_eq {x low high : ℝ} (h : low ≤ high) :
    clamp? x low high = some (Max.max low (Min.min x high)) := by
  unfold clamp?
  rw [if_pos h]
  congr 1
  split
  · rename_i hlow
    rw [max_eq_left (min_le_of_left_le hlow.le)]
  · rename_i hlow
    split
    · rename_i hhigh
      rw [min_eq_right hhigh.le, max_eq_right h]
    · rename_i hhigh
      rw [min_eq_left (not_lt.mp hhigh), max_eq_right (not_lt.mp hlow)]

theorem Scalar.power_pos {x : ℝ} (hx : 0 < x) (y : ℝ) : 0 < Scalar.power x y :=
  Real.rpow_pos_of_pos hx y

theorem Scalar.power_nonneg {x : ℝ} (hx : 0 ≤ x) (y : ℝ) :
    0 ≤ Scalar.power x y :=
  Real.rpow_nonneg hx y

theorem Scalar.nearest_near {x : ℝ} (hx : 0 ≤ x) :
    |(nearest x : ℝ) - x| ≤ 1 / 2 := by
  have hle := Nat.floor_le (add_nonneg hx one_half_pos.le)
  have hlt := Nat.lt_floor_add_one (x + 1 / 2)
  change |(⌊x + 1 / 2⌋₊ : ℝ) - x| ≤ 1 / 2
  rw [abs_le]
  constructor <;> linarith

section Units

open CarrierTransport.Units

theorem cm_pos : (0 : ℝ) < cm := by norm_num [cm, mm]

theorem volt_pos : (0 : ℝ) < volt := by norm_num [volt, megavolt]

theorem s_pos : (0 : ℝ) < s := by norm_num [s, ns]

theorem ps_pos : (0 : ℝ) < ps := by norm_num [ps, ns]

theorem perCm3_pos : (0 : ℝ) < perCm3 := by norm_num [perCm3, cm, mm]

theorem electronvolt_pos : (0 : ℝ) < electronvolt := by
  norm_num [electronvolt, megaelectronvolt]

theorem boltzmann_pos : (0 : ℝ) < boltzmann := by
  norm_num [boltzmann, electronvolt, megaelectronvolt, kelvin]

end Units

namespace Random

/-- A uniform draw lies in `[0, 1)`. -/
theorem unitOfWord_bounds (word : UInt64) :
    0 ≤ (unitOfWord word : ℝ) ∧ (unitOfWord word : ℝ) < 1 := by
  have hword : (word >>> 11).toNat < 2 ^ 53 := by
    rw [UInt64.toNat_shiftRight, Nat.shiftRight_eq_div_pow]
    have hlt := word.toNat_lt
    change word.toNat / 2 ^ 11 < 2 ^ 53
    omega
  have hcast : ((word >>> 11).toNat : ℝ) < 2 ^ 53 := by exact_mod_cast hword
  have hunit : (unitOfWord word : ℝ) = (word >>> 11).toNat / 2 ^ 53 := by
    change ((word >>> 11).toNat : ℝ) / 9007199254740992.0 = _
    norm_num
  rw [hunit]
  constructor
  · positivity
  · rw [div_lt_one (by positivity)]
    exact hcast

end Random

namespace Parameters

variable {model parameter : String}

theorem pos_of_requirePositive {given : Option ℝ} {value : ℝ}
    (h : requirePositive model parameter given = .ok value) : 0 < value := by
  obtain ⟨found, -, h⟩ := bind_eq_ok.mp h
  split at h
  · cases h
  · rename_i hpositive
    cases h
    exact not_le.mp fun hle => hpositive (hle.trans_eq decimal_zero.symm)

theorem pos_of_requirePair {given : PerCarrier (Option ℝ)} {pair : PerCarrier ℝ}
    (h : requirePair model parameter given = .ok pair) (carrier : Carrier) :
    0 < pair.get carrier := by
  obtain ⟨electron, helectron, h⟩ := bind_eq_ok.mp h
  obtain ⟨hole, hhole, h⟩ := bind_eq_ok.mp h
  cases h
  cases carrier with
  | electron => exact pos_of_requirePositive helectron
  | hole => exact pos_of_requirePositive hhole

end Parameters

end CarrierTransport
