import CarrierTransport.Scalar.Double
import Mathlib

/-!
# Counts in doubles

A count of 53 bits or less is a double, times one it is itself, and the whole
number nearest to it is the count.
-/

namespace CarrierTransport

open Float.Model (Format UnpackedFloat totalExponent)
open Float.Model.UnpackedFloat

namespace Counts

theorem log2_mul_two_pow {m : Nat} (hm : m ≠ 0) (k : Nat) :
    (m * 2 ^ k).log2 = m.log2 + k := by
  have hpow := Nat.two_pow_pos k
  have hpos : m * 2 ^ k ≠ 0 := Nat.mul_ne_zero hm (by omega)
  refine (Nat.log2_eq_iff hpos).mpr ⟨?_, ?_⟩
  · rw [Nat.pow_add]
    exact Nat.mul_le_mul_right _ (Nat.log2_self_le hm)
  · rw [Nat.add_right_comm, Nat.pow_add]
    exact Nat.mul_lt_mul_of_pos_right Nat.lt_log2_self hpow

/-- The significand of a positive count, with its leading bit in place. -/
def significand (n : Nat) : Nat := n * 2 ^ (52 - n.log2)

def exponent (n : Nat) : Int := n.log2 - 52

theorem log2_significand {n : Nat} (hn : 0 < n) (hbound : n < 2 ^ 53) :
    (significand n).log2 = 52 := by
  have hlog : n.log2 < 53 := (Nat.log2_lt (by omega)).mpr hbound
  rw [significand, log2_mul_two_pow (by omega)]
  omega

theorem pos_of_log2 {m : Nat} (hm : m.log2 = 52) : 0 < m := by
  refine Nat.pos_of_ne_zero ?_
  rintro rfl
  rw [Nat.log2_zero] at hm
  omega

/-- Zeros that are shifted out leave nothing to round. -/
theorem shiftRight_zeros (m k : Nat) :
    (⟨m * 2 ^ k, false, false⟩ : ExtendedMantissa) >>> k =
      ⟨m, false, false⟩ := by
  induction k generalizing m with
  | zero => rw [Nat.pow_zero, Nat.mul_one]; rfl
  | succ k ih =>
      have hshift := ih (m * 2)
      rw [Nat.mul_assoc, ← Nat.pow_succ'] at hshift
      change ((⟨m * 2 ^ (k + 1), false, false⟩ : ExtendedMantissa) >>>
        k).shiftRightOne = _
      rw [hshift]
      simp [ExtendedMantissa.shiftRightOne]

theorem shiftToTargetExponent_zeros {m : Nat} (hm : m.log2 = 52) (k : Nat)
    {e : Int} (he : -1074 ≤ e + k) :
    shiftToTargetExponent Format.binary64 (m * 2 ^ k) e .exact =
      (⟨m, false, false⟩, e + k) := by
  have hpos := pos_of_log2 hm
  have htarget : Format.binary64.targetExponent
      (totalExponent (m * 2 ^ k) e) = e + k := by
    unfold Format.targetExponent totalExponent Format.minExponent
    rw [log2_mul_two_pow (by omega), hm]
    change max (((52 + k : Nat) : Int) + 1 + e - 53) (-1074) = e + k
    omega
  have hshift : (e + k - e).toNat = k := by omega
  unfold shiftToTargetExponent shiftToExponent
  rw [htarget]
  simp only [hshift, ExtendedMantissa.ofMantissaAndAccuracy, shiftRight_zeros]

theorem roundWithAccuracy_zeros {m : Nat} (hm : m.log2 = 52) (k : Nat)
    {e : Int} (he : -1074 ≤ e + k) (sign : Sign) :
    roundWithAccuracy Format.binary64 sign (m * 2 ^ k) e .exact =
      .finite sign m (e + k) (pos_of_log2 hm) := by
  have hpos := pos_of_log2 hm
  have hagain := shiftToTargetExponent_zeros hm 0 (e := e + k) (by omega)
  rw [Nat.pow_zero, Nat.mul_one] at hagain
  unfold roundWithAccuracy
  rw [shiftToTargetExponent_zeros hm k he]
  simp only [ExtendedMantissa.roundedMantissa, ExtendedMantissa.accuracy,
    Accuracy.roundToNearestEven, hagain]
  rw [dif_neg (by omega)]
  simp

theorem ofNat_eq {n : Nat} (hn : 0 < n) (hbound : n < 2 ^ 53) :
    ofNat Format.binary64 n = .finite .positive (significand n) (exponent n)
      (pos_of_log2 (log2_significand hn hbound)) := by
  have hlog : n.log2 < 53 := (Nat.log2_lt (by omega)).mpr hbound
  have hcompare : compare (n : Int) 0 = .gt :=
    Int.compare_eq_gt.mpr (by omega)
  have htarget : Format.binary64.targetExponent (totalExponent n 0) =
      exponent n := by
    unfold Format.targetExponent totalExponent Format.minExponent exponent
    change max ((n.log2 : Int) + 1 + 0 - 53) (-1074) = _
    omega
  have hshift : (0 - exponent n).toNat = 52 - n.log2 := by
    unfold exponent
    omega
  have hexponent : (0 : Int) - (52 - n.log2 : Nat) = exponent n := by
    unfold exponent
    omega
  have hround := roundWithAccuracy_zeros (log2_significand hn hbound) 0
    (e := exponent n) (by unfold exponent; omega) .positive
  unfold ofNat ofInt UnpackedFloat.normalize
  simp only [hcompare, UnpackedFloat.round, Int.toNat_natCast, htarget, decreaseExponent,
    hshift, hexponent, Nat.shiftLeft_eq]
  simpa [significand] using hround

/-! ## Fields of a word -/

section Fields

theorem toNat_append_eq {v w : Nat} (x : BitVec v) (y : BitVec w) :
    (x ++ y).toNat = x.toNat * 2 ^ w + y.toNat := by
  rw [BitVec.toNat_append, ← Nat.shiftLeft_add_eq_or_of_lt y.isLt,
    Nat.shiftLeft_eq]

variable {m : Nat} {e : Int}

theorem mod_leadingBit (hm : m.log2 = 52) : 2 ^ 52 + m % 2 ^ 52 = m := by
  have hpos := pos_of_log2 hm
  obtain ⟨hlow, hhigh⟩ := (Nat.log2_eq_iff (by omega)).mp hm
  omega

theorem pack_eq (hm : m.log2 = 52) (hlow : -1074 ≤ e) (hhigh : e ≤ 971)
    (sign : Sign) :
    pack Format.binary64 (.finite sign m e (pos_of_log2 hm)) =
      packComponents Format.binary64 sign (BitVec.ofNat 11 (e + 1075).toNat)
        (BitVec.ofNat 52 m) := by
  have hbiased : e + Format.binary64.exponentBias +
      Format.binary64.mantissaBitsWithoutImplicit = e + 1075 := by
    change e + 1023 + 52 = e + 1075
    omega
  have hfits : ¬2 ^ Format.binary64.exponentBits ≤ (e + 1075).toNat + 1 := by
    change ¬2048 ≤ (e + 1075).toNat + 1
    omega
  unfold pack
  simp only [hbiased, if_neg hfits, hm]
  exact if_pos rfl

theorem toNat_pack (hm : m.log2 = 52) (hlow : -1074 ≤ e) (hhigh : e ≤ 971) :
    (pack Format.binary64
      (.finite .positive m e (pos_of_log2 hm))).toNat =
        (e + 1075).toNat * 2 ^ 52 + m % 2 ^ 52 := by
  rw [pack_eq hm hlow hhigh]
  change (0#1 ++ BitVec.ofNat 11 (e + 1075).toNat ++
    BitVec.ofNat 52 m).toNat = _
  have hbiased : (e + 1075).toNat < 2 ^ 11 := by omega
  rw [toNat_append_eq, toNat_append_eq, BitVec.toNat_ofNat, BitVec.toNat_ofNat,
    BitVec.toNat_ofNat, Nat.zero_mod, Nat.zero_mul, Nat.zero_add,
    Nat.mod_eq_of_lt hbiased]

theorem unpack_pack (hm : m.log2 = 52) (hlow : -1074 ≤ e) (hhigh : e ≤ 971) :
    unpack Format.binary64
      (pack Format.binary64 (.finite .positive m e (pos_of_log2 hm))) =
        .finite .positive m e (pos_of_log2 hm) := by
  have hbiased : (BitVec.ofNat 11 (e + 1075).toNat).toNat =
      (e + 1075).toNat := by
    rw [BitVec.toNat_ofNat]
    exact Nat.mod_eq_of_lt (by omega)
  have hfinite : BitVec.ofNat 11 (e + 1075).toNat ≠ -1#11 := by
    intro h
    have htoNat := congrArg BitVec.toNat h
    rw [hbiased] at htoNat
    change (e + 1075).toNat = 2047 at htoNat
    omega
  have hnormal : BitVec.ofNat 11 (e + 1075).toNat ≠ 0#11 := by
    intro h
    have htoNat := congrArg BitVec.toNat h
    rw [hbiased] at htoNat
    change (e + 1075).toNat = 0 at htoNat
    omega
  have hmantissa : (1#1 ++ BitVec.ofNat 52 m).toNat = m := by
    rw [toNat_append_eq, BitVec.toNat_ofNat, BitVec.toNat_ofNat]
    exact mod_leadingBit hm
  have hexponent : ((e + 1075).toNat : Int) -
      (Format.binary64.exponentBias +
        Format.binary64.mantissaBitsWithoutImplicit) = e := by
    change ((e + 1075).toNat : Int) - (1023 + 52) = e
    omega
  rw [pack_eq hm hlow hhigh]
  unfold unpack
  simp only [unpackExponent_packComponents, unpackMantissa_packComponents,
    unpackSign_packComponents]
  rw [if_neg hfinite, if_neg hnormal]
  simp only [hmantissa, hbiased, hexponent]
  rfl

end Fields

/-! ## Doubles -/

section Doubles

variable {n : Nat} (hn : 0 < n) (hbound : n < 2 ^ 53)

def packed : Float.Model :=
  .pack (.finite .positive (significand n) (exponent n)
    (pos_of_log2 (log2_significand hn hbound)))

include hn hbound in
theorem exponent_bounds : -52 ≤ exponent n ∧ exponent n ≤ 0 := by
  have hlog : n.log2 < 53 := (Nat.log2_lt (by omega)).mpr hbound
  unfold exponent
  omega

theorem unpack_packed : (packed hn hbound).unpack =
    .finite .positive (significand n) (exponent n)
      (pos_of_log2 (log2_significand hn hbound)) := by
  have hexponent := exponent_bounds hn hbound
  exact unpack_pack (log2_significand hn hbound) (by omega) (by omega)

theorem ofNat_value :
    (Double.ofNat n).value = .ofModel (packed hn hbound) := by
  have hword : n < UInt64.size := by
    change n < 2 ^ 64
    omega
  have htoNat : n.toUInt64.toNat = n := UInt64.toNat_ofNat_of_lt' hword
  unfold Double.ofNat
  rw [if_pos hword]
  change Float.ofModel (.pack (ofNat Format.binary64 n.toUInt64.toNat)) = _
  rw [htoNat, ofNat_eq hn hbound]
  rfl

theorem packed_mul_one :
    (packed hn hbound).mul (1.0 : Double).value.toModel = packed hn hbound := by
  have hone : (1.0 : Double).value.toModel.unpack =
      .finite .positive (2 ^ 52) (-52) (by decide) := rfl
  have hexponent := exponent_bounds hn hbound
  have hround := roundWithAccuracy_zeros (log2_significand hn hbound) 52
    (e := exponent n + -52) (by omega) .positive
  have hback : exponent n + -52 + (52 : Nat) = exponent n := by omega
  unfold Float.Model.mul
  rw [unpack_packed, hone]
  simp only [hback] at hround
  exact congrArg Float.Model.pack hround

theorem ofBits_eq {bits : UInt64} {field fraction : Nat}
    (hbits : bits.toNat = field * 2 ^ 52 + fraction) (hfield : 0 < field)
    (hfinite : field < 2047) (hfraction : fraction < 2 ^ 52) :
    Binary64.ofBits bits =
      .finite false (2 ^ 52 + fraction) (field - 1075) := by
  have hleading : Binary64.leadingBit = 2 ^ 52 := rfl
  have hsign : bits.toNat >>> 63 = 0 := by
    rw [Nat.shiftRight_eq_div_pow]
    omega
  have hread : bits.toNat >>> 52 % 2048 = field := by
    rw [Nat.shiftRight_eq_div_pow]
    omega
  have hrest : bits.toNat % 2 ^ 52 = fraction := by omega
  unfold Binary64.ofBits
  simp only [hsign, hread, hleading, hrest]
  rw [if_neg (by simp; omega), if_neg (by simp; omega)]
  rfl

theorem ofFloat_packed :
    Binary64.ofFloat (.ofModel (packed hn hbound)) =
      .finite false (significand n) (exponent n) := by
  have hexponent := exponent_bounds hn hbound
  have hlog := log2_significand hn hbound
  have hbits : (packed hn hbound).toBits.toNat =
      (exponent n + 1075).toNat * 2 ^ 52 + significand n % 2 ^ 52 :=
    toNat_pack hlog (by omega) (by omega)
  have hfields := ofBits_eq hbits (by omega) (by omega)
    (Nat.mod_lt _ (by decide))
  rw [mod_leadingBit hlog] at hfields
  refine hfields.trans ?_
  congr 1
  omega

theorem nearest_packed :
    (Binary64.ofFloat (.ofModel (packed hn hbound))).nearest = n := by
  have hexponent := exponent_bounds hn hbound
  rw [ofFloat_packed]
  unfold Binary64.nearest Binary64.numerator Binary64.denominator
  have hup : (exponent n).toNat = 0 := by omega
  have hdown : (-exponent n).toNat = 52 - n.log2 := by
    unfold exponent
    omega
  simp only [hup, hdown, Nat.shiftLeft_zero, Nat.one_shiftLeft, significand]
  have hpos := Nat.two_pow_pos (52 - n.log2)
  generalize 2 ^ (52 - n.log2) = unit at hpos ⊢
  have hsum : 2 * (n * unit) + unit = 2 * unit * n + unit := by
    rw [Nat.mul_comm n, Nat.mul_assoc]
  have hhalf : unit < 2 * unit := by omega
  rw [hsum, Nat.mul_add_div (by omega), Nat.div_eq_of_lt hhalf, Nat.add_zero]

end Doubles

end Counts

/-- A count of 53 bits or less, times one, is nearest to itself. -/
theorem nearest_ofNat_mul_one {n : Nat} (hbound : n < 2 ^ 53) :
    Scalar.nearest (Scalar.ofNat n * (1.0 : Double)) = n := by
  obtain rfl | hn := Nat.eq_zero_or_pos n
  · decide +kernel
  · have hvalue : (Scalar.ofNat n * (1.0 : Double)).value =
        .ofModel (Counts.packed hn hbound) := by
      change Float.mul (Double.ofNat n).value (1.0 : Double).value = _
      rw [Counts.ofNat_value hn hbound]
      exact congrArg Float.ofModel (Counts.packed_mul_one hn hbound)
    have hnumber : (Float.ofModel (Counts.packed hn hbound)).isNaN = false := by
      change (Counts.packed hn hbound).unpack.isNaN = false
      rw [Counts.unpack_packed]
      rfl
    change (Double.exact _).nearest = n
    unfold Double.exact
    rw [hvalue, hnumber]
    exact Counts.nearest_packed hn hbound

end CarrierTransport
