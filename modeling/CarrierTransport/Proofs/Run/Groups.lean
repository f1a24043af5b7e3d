import CarrierTransport.Run.Groups
import Mathlib.Algebra.Order.Floor.Div

/-!
# The groups of a deposit

However a charge is cut, its groups add up to it, and they are as many as the
quotient rounded up.
-/

namespace CarrierTransport

theorem toNat_pos_of_ne_zero {a : UInt32} (h : a ≠ 0) : 0 < a.toNat :=
  Nat.pos_of_ne_zero fun hzero => h (UInt32.toNat_inj.mp hzero)

/-- The one that is added to the quotient never wraps around. -/
theorem toNat_ceilDiv (a : UInt32) {b : UInt32} (hb : b ≠ 0) :
    (ceilDiv a b).toNat =
      (a / b).toNat + if a % b = 0 then 0 else 1 := by
  unfold ceilDiv
  by_cases hrest : a % b = 0
  · rw [if_pos hrest, if_pos hrest, UInt32.add_zero, Nat.add_zero]
  · have hpos := toNat_pos_of_ne_zero hb
    have hleft := toNat_pos_of_ne_zero hrest
    rw [UInt32.toNat_mod] at hleft
    -- Something is left over only by a divisor of two or more.
    have htwo : 2 ≤ b.toNat := by
      have := Nat.mod_lt a.toNat hpos
      omega
    have hhalf : a.toNat / b.toNat ≤ a.toNat / 2 :=
      Nat.div_le_div_left htwo (by omega)
    have hlt : a.toNat < 2 ^ 32 := a.toNat_lt
    rw [if_neg hrest, if_neg hrest, UInt32.toNat_add, UInt32.toNat_one,
      UInt32.toNat_div]
    exact Nat.mod_eq_of_lt (by omega)

theorem toNat_ceilDiv_eq (a : UInt32) {b : UInt32} (hb : b ≠ 0) :
    (ceilDiv a b).toNat = a.toNat ⌈/⌉ b.toNat := by
  have hpos := toNat_pos_of_ne_zero hb
  have hsplit := Nat.div_add_mod a.toNat b.toNat
  have hmod := Nat.mod_lt a.toNat hpos
  rw [toNat_ceilDiv a hb, UInt32.toNat_div, Nat.ceilDiv_eq_add_pred_div]
  by_cases hrest : a % b = 0
  · have hzero : a.toNat % b.toNat = 0 := by
      rw [← UInt32.toNat_mod, hrest]
      rfl
    have hsum : a.toNat + b.toNat - 1 =
        b.toNat * (a.toNat / b.toNat) + (b.toNat - 1) := by
      omega
    have hlt : b.toNat - 1 < b.toNat := by omega
    rw [if_pos hrest, hsum, Nat.mul_add_div hpos, Nat.div_eq_of_lt hlt]
  · have hleft := toNat_pos_of_ne_zero hrest
    rw [UInt32.toNat_mod] at hleft
    have hsum : a.toNat + b.toNat - 1 =
        b.toNat * (a.toNat / b.toNat + 1) + (a.toNat % b.toNat - 1) := by
      rw [Nat.mul_succ]
      omega
    have hlt : a.toNat % b.toNat - 1 < b.toNat := by omega
    rw [if_neg hrest, hsum, Nat.mul_add_div hpos, Nat.div_eq_of_lt hlt]

theorem toNat_max_one (a : UInt32) : (max a 1).toNat = max a.toNat 1 := by
  change (if a ≤ 1 then 1 else a).toNat = _
  have hle : a ≤ 1 ↔ a.toNat ≤ 1 := UInt32.le_iff_toNat_le
  by_cases h : a ≤ 1
  · rw [if_pos h, Nat.max_eq_right (hle.mp h)]
    rfl
  · rw [if_neg h, Nat.max_eq_left]
    have := mt hle.mpr h
    omega

theorem max_one_ne_zero (a : UInt32) : max a 1 ≠ 0 := by
  intro h
  have hzero := congrArg UInt32.toNat h
  rw [toNat_max_one, UInt32.toNat_zero] at hzero
  omega

/-- Groups are made larger when there is a limit and there would be more. -/
theorem GroupPlan.coarsened_ofCharge (charge perStep limit : UInt32) :
    (ofCharge charge perStep limit).coarsened = true ↔
      0 < limit.toNat ∧
        limit.toNat < charge.toNat ⌈/⌉ max perStep.toNat 1 := by
  have hnumber := toNat_ceilDiv_eq charge (max_one_ne_zero perStep)
  rw [toNat_max_one] at hnumber
  rw [← hnumber]
  change _ ↔ 0 < limit ∧ limit < ceilDiv charge (max perStep 1)
  unfold ofCharge
  by_cases h : 0 < limit ∧ limit < ceilDiv charge (max perStep 1)
  · exact iff_of_true (by rw [if_pos h]) h
  · exact iff_of_false (by rw [if_neg h]; simp) h

namespace ChargeGroups

theorem ofPlan_size_ne_zero (charge : UInt32) (plan : GroupPlan) :
    (ofPlan charge plan).size ≠ 0 :=
  max_one_ne_zero plan.size

theorem toList_eq (g : ChargeGroups) :
    g.toList = List.replicate (g.remaining / g.size).toNat g.size ++
      if g.remaining % g.size = 0 then [] else [g.remaining % g.size] := by
  unfold toList runs
  by_cases hfull : g.remaining / g.size = 0 <;>
    by_cases hrest : g.remaining % g.size = 0 <;> simp [hfull, hrest]

/-- No carrier is lost and none is added. -/
theorem sum_toList (g : ChargeGroups) :
    (g.toList.map UInt32.toNat).sum = g.remaining.toNat := by
  have hsplit := Nat.div_add_mod g.remaining.toNat g.size.toNat
  rw [toList_eq, List.map_append, List.sum_append, List.map_replicate,
    List.sum_replicate_nat, UInt32.toNat_div, Nat.mul_comm]
  by_cases hrest : g.remaining % g.size = 0
  · have hzero := congrArg UInt32.toNat hrest
    rw [UInt32.toNat_mod, UInt32.toNat_zero] at hzero
    rw [if_pos hrest, List.map_nil, List.sum_nil]
    omega
  · rw [if_neg hrest, List.map_singleton, List.sum_singleton,
      UInt32.toNat_mod]
    exact hsplit

theorem length_toList (g : ChargeGroups) (hsize : g.size ≠ 0) :
    g.toList.length = g.length.toNat := by
  rw [length, toNat_ceilDiv g.remaining hsize, toList_eq, List.length_append,
    List.length_replicate]
  by_cases hrest : g.remaining % g.size = 0
  · rw [if_pos hrest, if_pos hrest]
    rfl
  · rw [if_neg hrest, if_neg hrest]
    rfl

end ChargeGroups

end CarrierTransport
