import CarrierTransport.Scalar.Double
import Mathlib.Data.Prod.Lex
import Mathlib.Order.Compare

/-!
# The order of scalars

A scalar that is not a number compares with nothing, not even with itself.  The
others are in a linear order, and a timestep that is a number is one also after
it was made shorter or longer.
-/

namespace CarrierTransport

open Float.Model (Format UnpackedFloat)
open Float.Model.UnpackedFloat

/-- Scalars with a linear order of those that are numbers, which are the `x`
with `x ≤ x`. -/
class OrderedScalar (α : Type) [Scalar α] : Prop where
  le_trans {a b c : α} : a ≤ b → b ≤ c → a ≤ c
  refl_left {a b : α} : a ≤ b → a ≤ a
  refl_right {a b : α} : a ≤ b → b ≤ b
  le_of_not_lt {a b : α} : a ≤ a → b ≤ b → ¬a < b → b ≤ a
  refl_shorter {a : α} : a ≤ a → a * 0.75 ≤ a * 0.75
  refl_longer {a : α} : a ≤ a → a * 1.5 ≤ a * 1.5

namespace OrderedScalar

variable {α : Type} [Scalar α] [OrderedScalar α]

/-- A number that is clamped between bounds in order lies between them. -/
theorem clamp?_eq_some {x low high : α} (hx : x ≤ x) (h : low ≤ high) :
    ∃ y, Scalar.clamp? x low high = some y ∧ low ≤ y ∧ y ≤ high := by
  have hlow : low ≤ low := refl_left h
  have hhigh : high ≤ high := refl_right h
  unfold Scalar.clamp?
  rw [if_pos h]
  split
  · exact ⟨low, rfl, hlow, h⟩
  · rename_i hbelow
    split
    · exact ⟨high, rfl, h, hhigh⟩
    · rename_i habove
      exact ⟨x, rfl, le_of_not_lt hx hlow hbelow,
        le_of_not_lt hhigh hx habove⟩

end OrderedScalar

/-! ## Doubles -/

namespace Comparison

/-- Where a number stands: by its kind, then its exponent, then its
significand. -/
def rank : UnpackedFloat → ℤ ×ₗ ℤ ×ₗ ℤ
  | .infinity .positive => toLex (2, toLex (0, 0))
  | .finite .positive m e _ => toLex (1, toLex (e, (m : ℤ)))
  | .zero _ | .notANumber => toLex (0, toLex (0, 0))
  | .finite .negative m e _ => toLex (-1, toLex (-e, -(m : ℤ)))
  | .infinity .negative => toLex (-2, toLex (0, 0))

theorem eq_compare {β : Type} [LinearOrder β] {x y : β} {o : Ordering}
    (hlt : o = .lt ↔ x < y) (heq : o = .eq ↔ x = y) : o = compare x y := by
  cases o with
  | lt => exact (compare_lt_iff_lt.mpr (hlt.mp rfl)).symm
  | eq => exact (compare_eq_iff_eq.mpr (heq.mp rfl)).symm
  | gt =>
      have hge : ¬x < y := fun h => nomatch hlt.mpr h
      have hne : x ≠ y := fun h => nomatch heq.mpr h
      have hgt : y < x := lt_of_le_of_ne (not_lt.mp hge) hne.symm
      exact (compare_gt_iff_gt.mpr hgt).symm

theorem compare_finite (s t : Sign) {m n : Nat} {e k : Int} (hm : 0 < m)
    (hn : 0 < n) :
    UnpackedFloat.compare (.finite s m e hm) (.finite t n k hn) =
      some (compare (rank (.finite s m e hm)) (rank (.finite t n k hn))) := by
  cases s <;> cases t
  case negative.positive | positive.negative => rfl
  case positive.positive =>
    refine congrArg some (eq_compare ?_ ?_) <;> dsimp only [rank]
    · simp [Prod.Lex.toLex_lt_toLex, Ordering.then_eq_lt,
        Int.compare_eq_lt, Nat.compare_eq_lt]
    · simp only [Ordering.then_eq_eq, compare_eq_iff_eq,
        EmbeddingLike.apply_eq_iff_eq, Prod.mk.injEq, true_and]
      omega
  case negative.negative =>
    refine congrArg some (eq_compare ?_ ?_) <;> dsimp only [rank]
    · simp [Prod.Lex.toLex_lt_toLex, Ordering.then_eq_gt,
        Int.compare_eq_gt, Nat.compare_eq_gt]
    · simp only [Ordering.swap_eq_eq, Ordering.then_eq_eq, compare_eq_iff_eq,
        EmbeddingLike.apply_eq_iff_eq, Prod.mk.injEq, true_and]
      omega

theorem compare_eq {a b : UnpackedFloat} (ha : a.isNaN = false)
    (hb : b.isNaN = false) :
    a.compare b = some (compare (rank a) (rank b)) := by
  cases a with
  | notANumber => cases ha
  | infinity s =>
      cases b with
      | notANumber => cases hb
      | infinity t => cases s <;> cases t <;> rfl
      | zero t => cases s <;> rfl
      | finite t n k hn => cases s <;> cases t <;> rfl
  | zero s =>
      cases b with
      | notANumber => cases hb
      | infinity t => cases t <;> rfl
      | zero t => rfl
      | finite t n k hn => cases t <;> rfl
  | finite s m e hm =>
      cases b with
      | notANumber => cases hb
      | infinity t => cases s <;> cases t <;> rfl
      | zero t => cases s <;> rfl
      | finite t n k hn => exact compare_finite s t hm hn

theorem compare_eq_none {a b : UnpackedFloat}
    (h : a.isNaN = true ∨ b.isNaN = true) : a.compare b = none := by
  obtain h | h := h
  · cases a with
    | notANumber => rfl
    | infinity | zero | finite => cases h
  · cases b with
    | notANumber => cases a <;> rfl
    | infinity | zero | finite => cases h

theorem le_iff {a b : UnpackedFloat} :
    a.le b = true ↔ a.isNaN = false ∧ b.isNaN = false ∧ rank a ≤ rank b := by
  by_cases h : a.isNaN = true ∨ b.isNaN = true
  · unfold UnpackedFloat.le
    rw [compare_eq_none h]
    constructor
    · intro hle
      cases hle
    · rintro ⟨ha, hb, -⟩
      simp [ha, hb] at h
  · simp only [not_or, Bool.not_eq_true] at h
    unfold UnpackedFloat.le
    rw [compare_eq h.1 h.2]
    simp [h, Ordering.isLE_iff_ne_gt, compare_gt_iff_gt]

theorem lt_iff {a b : UnpackedFloat} (ha : a.isNaN = false)
    (hb : b.isNaN = false) : a.lt b = true ↔ rank a < rank b := by
  unfold UnpackedFloat.lt
  rw [compare_eq ha hb]
  simp [compare_lt_iff_lt]

theorem isNaN_dite {c : Prop} [Decidable c] {a : c → UnpackedFloat}
    {b : ¬c → UnpackedFloat} (ha : ∀ h, (a h).isNaN = false)
    (hb : ∀ h, (b h).isNaN = false) : (dite c a b).isNaN = false := by
  by_cases h : c
  · rw [dif_pos h]
    exact ha h
  · rw [dif_neg h]
    exact hb h

theorem isNaN_unpack {word : BitVec Format.binary64.numBits}
    (h : unpackExponent word = -1#11 → unpackMantissa word = 0#52) :
    (unpack Format.binary64 word).isNaN = false := by
  unfold unpack
  by_cases hexponent : unpackExponent word = -1#11
  · dsimp only
    rw [if_pos hexponent, if_pos (h hexponent)]
    rfl
  · dsimp only
    rw [if_neg hexponent]
    by_cases hsubnormal : unpackExponent word = 0#11
    · rw [if_pos hsubnormal]
      exact isNaN_dite (fun _ => rfl) fun _ => rfl
    · rw [if_neg hsubnormal]
      rfl

/-- A number is still one when it is packed. -/
theorem isNaN_unpack_pack {a : UnpackedFloat} (ha : a.isNaN = false) :
    (unpack Format.binary64 (pack Format.binary64 a)).isNaN = false := by
  refine isNaN_unpack fun hexponent => ?_
  fun_cases pack with
  | case1 => cases ha
  | case2 s | case3 s | case4 s => exact unpackMantissa_packComponents
  | case5 s m e hm log biased hfits hnormal =>
      unfold pack at hexponent
      dsimp only at hexponent
      rw [if_neg hfits, if_pos hnormal, unpackExponent_packComponents]
        at hexponent
      have hbiased := congrArg BitVec.toNat hexponent
      rw [BitVec.toNat_ofNat] at hbiased
      change biased % 2048 = 2047 at hbiased
      change ¬2048 ≤ biased + 1 at hfits
      omega
  | case6 s m e hm log biased hfits hnormal =>
      unfold pack at hexponent
      dsimp only at hexponent
      rw [if_neg hfits, if_neg hnormal, unpackExponent_packComponents]
        at hexponent
      exact absurd hexponent (by decide)

theorem isNaN_mul {a c : UnpackedFloat} (ha : a.isNaN = false)
    (hc : ∃ s m e hm, c = .finite s m e hm) :
    (mul Format.binary64 a c).isNaN = false := by
  obtain ⟨s, m, e, hm, rfl⟩ := hc
  cases a with
  | notANumber => cases ha
  | infinity | zero => rfl
  | finite =>
      unfold mul roundWithAccuracy
      exact isNaN_dite (fun _ => rfl) fun _ => rfl

end Comparison

namespace Double

def unpack (x : Double) : UnpackedFloat := x.value.toModel.unpack

theorem le_iff {x y : Double} : x ≤ y ↔ x.unpack.le y.unpack = true :=
  decide_eq_true_iff

theorem lt_iff {x y : Double} : x < y ↔ x.unpack.lt y.unpack = true :=
  decide_eq_true_iff

theorem isNaN_of_lt {x y : Double} (h : x < y) :
    x.unpack.isNaN = false ∧ y.unpack.isNaN = false := by
  by_cases hnan : x.unpack.isNaN = true ∨ y.unpack.isNaN = true
  · have hlt := lt_iff.mp h
    rw [UnpackedFloat.lt, Comparison.compare_eq_none hnan] at hlt
    cases hlt
  · simp only [not_or, Bool.not_eq_true] at hnan
    exact hnan

theorem isNaN_of_le {x y : Double} (h : x ≤ y) :
    x.unpack.isNaN = false ∧ y.unpack.isNaN = false := by
  obtain ⟨hx, hy, -⟩ := Comparison.le_iff.mp (le_iff.mp h)
  exact ⟨hx, hy⟩

theorem lt_of_lt_of_le {x y z : Double} (hxy : x < y) (hyz : y ≤ z) :
    x < z := by
  obtain ⟨hx, hy⟩ := isNaN_of_lt hxy
  obtain ⟨-, hz, hle⟩ := Comparison.le_iff.mp (le_iff.mp hyz)
  have hlt := (Comparison.lt_iff hx hy).mp (lt_iff.mp hxy)
  exact lt_iff.mpr ((Comparison.lt_iff hx hz).mpr (hlt.trans_le hle))

theorem le_refl_iff {x : Double} : x ≤ x ↔ x.unpack.isNaN = false := by
  constructor
  · intro h
    exact (isNaN_of_le h).1
  · intro h
    exact le_iff.mpr (Comparison.le_iff.mpr ⟨h, h, le_rfl⟩)

theorem le_refl_of_isFinite {x : Double} (h : Scalar.isFinite x = true) :
    x ≤ x := by
  rw [le_refl_iff]
  change x.unpack.isFinite = true at h
  cases hx : x.unpack with
  | notANumber =>
      rw [hx] at h
      cases h
  | infinity | zero | finite => rfl

theorem not_lt_iff {x y : Double} (hx : x ≤ x) (hy : y ≤ y) :
    ¬x < y ↔ y ≤ x := by
  rw [le_refl_iff] at hx hy
  rw [lt_iff, Comparison.lt_iff hx hy, not_lt, le_iff, Comparison.le_iff]
  simp [hx, hy]

theorem not_le_iff {x y : Double} (hx : x ≤ x) (hy : y ≤ y) :
    ¬x ≤ y ↔ y < x := by
  rw [← not_lt_iff hy hx, Decidable.not_not]

theorem le_refl_mul {x c : Double} (hx : x ≤ x)
    (hc : ∃ s m e hm, c.unpack = .finite s m e hm) : x * c ≤ x * c := by
  rw [le_refl_iff] at hx ⊢
  exact Comparison.isNaN_unpack_pack (Comparison.isNaN_mul hx hc)

instance : OrderedScalar Double where
  le_trans hab hbc := by
    obtain ⟨ha, -, hab⟩ := Comparison.le_iff.mp (le_iff.mp hab)
    obtain ⟨-, hc, hbc⟩ := Comparison.le_iff.mp (le_iff.mp hbc)
    exact le_iff.mpr (Comparison.le_iff.mpr ⟨ha, hc, hab.trans hbc⟩)
  refl_left h := le_refl_iff.mpr (isNaN_of_le h).1
  refl_right h := le_refl_iff.mpr (isNaN_of_le h).2
  le_of_not_lt ha hb h := (not_lt_iff ha hb).mp h
  refl_shorter h := le_refl_mul h ⟨_, _, _, _, rfl⟩
  refl_longer h := le_refl_mul h ⟨_, _, _, _, rfl⟩

end Double

end CarrierTransport
