import Mathlib.Order.Bounds.Basic
import CarrierTransport.Proofs.Run.Groups

/-!
# How a charge is cut

The size of the groups is the least that keeps to the limit on their number.
The groups are asked for one at a time, and after every call the length is the
number of those that are still to come.
-/

namespace CarrierTransport

/-! ## Words without wrapping -/

namespace Checked

/-- A sum that has to fit into a word. -/
def add? (a b : UInt32) : Option UInt32 :=
  if a.toNat + b.toNat < UInt32.size then some (a + b) else none

def sub? (a b : UInt32) : Option UInt32 :=
  if b ≤ a then some (a - b) else none

def div? (a b : UInt32) : Option UInt32 :=
  if b = 0 then none else some (a / b)

def mod? (a b : UInt32) : Option UInt32 :=
  if b = 0 then none else some (a % b)

def ceilDiv? (a b : UInt32) : Option UInt32 := do
  let quotient ← div? a b
  let rest ← mod? a b
  add? quotient (if rest = 0 then 0 else 1)

/-- The plan of a deposit, if none of its operations overflows or divides by
zero. -/
def plan? (charge perStep limit : UInt32) : Option GroupPlan := do
  let perStep := max perStep 1
  if 0 < limit then
    let number ← ceilDiv? charge perStep
    if limit < number then
      let size ← ceilDiv? charge limit
      return ⟨size, true⟩
    else
      return ⟨perStep, false⟩
  else
    return ⟨perStep, false⟩

/-- What a call for the next group gives, if nothing overflows. -/
def next? (g : ChargeGroups) : Option (Option (UInt32 × ChargeGroups)) :=
  if g.remaining = 0 then some none
  else do
    let group := min g.size g.remaining
    let remaining ← sub? g.remaining group
    return some (group, { g with remaining := remaining })

def length? (g : ChargeGroups) : Option UInt32 := ceilDiv? g.remaining g.size

theorem ceilDiv?_eq_some (a : UInt32) {b : UInt32} (hb : b ≠ 0) :
    ceilDiv? a b = some (ceilDiv a b) := by
  have hfits : (a / b).toNat + (if a % b = 0 then 0 else 1 : UInt32).toNat <
      UInt32.size := by
    have hexact := toNat_ceilDiv a hb
    have hword := (ceilDiv a b).toNat_lt
    rw [hexact] at hword
    split at hword <;> simpa [*] using hword
  have hquotient : div? a b = some (a / b) := if_neg hb
  have hrest : mod? a b = some (a % b) := if_neg hb
  unfold ceilDiv?
  rw [hquotient, hrest]
  exact if_pos hfits

theorem plan?_eq_some (charge perStep limit : UInt32) :
    plan? charge perStep limit =
      some (GroupPlan.ofCharge charge perStep limit) := by
  unfold plan? GroupPlan.ofCharge
  dsimp only
  by_cases hlimit : 0 < limit
  · have hne : limit ≠ 0 := by
      rintro rfl
      exact absurd hlimit (by decide)
    rw [if_pos hlimit, ceilDiv?_eq_some charge (max_one_ne_zero perStep),
      ceilDiv?_eq_some charge hne]
    by_cases hmany : limit < ceilDiv charge (max perStep 1)
    · rw [if_pos ⟨hlimit, hmany⟩]
      exact if_pos hmany
    · rw [if_neg fun h => hmany h.2]
      exact if_neg hmany
  · rw [if_neg hlimit, if_neg fun h => hlimit h.1]
    rfl

theorem next?_eq_some (g : ChargeGroups) : next? g = some g.next? := by
  unfold next? ChargeGroups.next?
  by_cases hdone : g.remaining = 0
  · rw [if_pos hdone, if_pos hdone]
  · have hsub : sub? g.remaining (min g.size g.remaining) =
        some (g.remaining - min g.size g.remaining) :=
      if_pos (Std.min_le_right)
    rw [if_neg hdone, if_neg hdone]
    dsimp only
    rw [hsub]
    rfl

end Checked

/-! ## The size of the groups -/

namespace GroupPlan

/-- The plan has the least size from `perStep` on that keeps to the limit, and
tells whether this is another one. -/
structure IsLeastFor (plan : GroupPlan) (charge perStep limit : ℕ) : Prop where
  unlimited : limit = 0 → plan.size.toNat = max perStep 1
  limited : limit ≠ 0 →
    IsLeast {size | max perStep 1 ≤ size ∧ charge ⌈/⌉ size ≤ limit}
      plan.size.toNat
  coarsened_iff : plan.coarsened = true ↔ max perStep 1 < plan.size.toNat

/-- So many groups are enough for a size if and only if a size is enough for so
many groups. -/
theorem ceilDiv_le_comm {charge size limit : ℕ} (hsize : 0 < size)
    (hlimit : 0 < limit) :
    charge ⌈/⌉ size ≤ limit ↔ charge ⌈/⌉ limit ≤ size := by
  rw [ceilDiv_le_iff_le_mul hsize, ceilDiv_le_iff_le_mul hlimit, mul_comm]

theorem toNat_size_ofCharge (charge perStep limit : UInt32) :
    (ofCharge charge perStep limit).size.toNat =
      if 0 < limit.toNat ∧
          limit.toNat < charge.toNat ⌈/⌉ max perStep.toNat 1 then
        charge.toNat ⌈/⌉ limit.toNat
      else max perStep.toNat 1 := by
  have hnumber := toNat_ceilDiv_eq charge (max_one_ne_zero perStep)
  rw [toNat_max_one] at hnumber
  rw [← hnumber]
  change _ = if 0 < limit ∧ limit < ceilDiv charge (max perStep 1) then _ else _
  unfold ofCharge
  by_cases h : 0 < limit ∧ limit < ceilDiv charge (max perStep 1)
  · have hne : limit ≠ 0 := by
      rintro rfl
      exact absurd h.1 (by decide)
    rw [if_pos h, if_pos h]
    exact toNat_ceilDiv_eq charge hne
  · rw [if_neg h, if_neg h]
    exact toNat_max_one perStep

theorem isLeastFor_ofCharge (charge perStep limit : UInt32) :
    (ofCharge charge perStep limit).IsLeastFor charge.toNat perStep.toNat
      limit.toNat := by
  have hsize := toNat_size_ofCharge charge perStep limit
  have hcoarsened := coarsened_ofCharge charge perStep limit
  have hpos : 0 < max perStep.toNat 1 := by omega
  by_cases hmany : 0 < limit.toNat ∧
      limit.toNat < charge.toNat ⌈/⌉ max perStep.toNat 1
  · obtain ⟨hlimit, hlt⟩ := hmany
    rw [if_pos ⟨hlimit, hlt⟩] at hsize
    have hlarger : max perStep.toNat 1 < charge.toNat ⌈/⌉ limit.toNat := by
      rw [← not_le, ← ceilDiv_le_comm hpos hlimit, not_le]
      exact hlt
    refine ⟨fun hzero => absurd hzero hlimit.ne', fun _ => ?_, ?_⟩
    · rw [hsize]
      constructor
      · exact ⟨hlarger.le,
          (ceilDiv_le_comm (hpos.trans hlarger) hlimit).mpr le_rfl⟩
      · rintro size ⟨hle, henough⟩
        exact (ceilDiv_le_comm (hpos.trans_le hle) hlimit).mp henough
    · rw [hsize]
      exact iff_of_true (hcoarsened.mpr ⟨hlimit, hlt⟩) hlarger
  · rw [if_neg hmany] at hsize
    refine ⟨fun _ => hsize, fun hne => ?_, ?_⟩
    · have henough : charge.toNat ⌈/⌉ max perStep.toNat 1 ≤ limit.toNat :=
        not_lt.mp fun hlt => hmany ⟨Nat.pos_of_ne_zero hne, hlt⟩
      rw [hsize]
      exact ⟨⟨le_rfl, henough⟩, fun size hle => hle.1⟩
    · rw [hsize]
      exact iff_of_false (fun h => hmany (hcoarsened.mp h)) (lt_irrefl _)

end GroupPlan

/-! ## The groups one at a time -/

namespace ChargeGroups

/-- What is left of the groups after a call for the next one. -/
def afterNext (g : ChargeGroups) : ChargeGroups :=
  match g.next? with
  | none => g
  | some (_, rest) => rest

theorem size_afterNext (g : ChargeGroups) : g.afterNext.size = g.size := by
  unfold afterNext next?
  by_cases hdone : g.remaining = 0 <;> simp [hdone]

theorem next?_of_done {g : ChargeGroups} (hdone : g.remaining = 0) :
    g.next? = none ∧ g.toList = [] := by
  have hfull : g.remaining / g.size = 0 := by
    rw [hdone]
    exact UInt32.zero_div
  have hrest : g.remaining % g.size = 0 := by
    rw [hdone]
    exact UInt32.zero_mod
  rw [toList_eq, hfull, if_pos hrest]
  exact ⟨if_pos hdone, rfl⟩

theorem toList_of_full {g : ChargeGroups} (hsize : g.size ≠ 0)
    (hle : g.size ≤ g.remaining) :
    g.toList = g.size ::
      toList { g with remaining := g.remaining - g.size } := by
  have hpos := toNat_pos_of_ne_zero hsize
  have hsub := UInt32.toNat_sub_of_le _ _ hle
  have hle' := UInt32.le_iff_toNat_le.mp hle
  have hfull : (g.remaining / g.size).toNat =
      ((g.remaining - g.size) / g.size).toNat + 1 := by
    rw [UInt32.toNat_div, UInt32.toNat_div, hsub]
    exact Nat.div_eq_sub_div hpos hle'
  have hrest : g.remaining % g.size = (g.remaining - g.size) % g.size := by
    rw [← UInt32.toNat_inj, UInt32.toNat_mod, UInt32.toNat_mod, hsub]
    exact Nat.mod_eq_sub_mod hle'
  rw [toList_eq, toList_eq, hfull, hrest, List.replicate_succ, List.cons_append]

theorem toList_of_last {g : ChargeGroups} (hleft : g.remaining ≠ 0)
    (hlt : g.remaining < g.size) : g.toList = [g.remaining] := by
  have hlt' := UInt32.lt_iff_toNat_lt.mp hlt
  have hfull : (g.remaining / g.size).toNat = 0 := by
    rw [UInt32.toNat_div]
    exact Nat.div_eq_of_lt hlt'
  have hrest : g.remaining % g.size = g.remaining := by
    rw [← UInt32.toNat_inj, UInt32.toNat_mod]
    exact Nat.mod_eq_of_lt hlt'
  rw [toList_eq, hfull, hrest, if_neg hleft]
  rfl

/-- A call gives the first of the groups and leaves the others. -/
theorem next?_eq (g : ChargeGroups) (hsize : g.size ≠ 0) :
    g.next?.map Prod.fst = g.toList.head? ∧
      g.afterNext.toList = g.toList.tail := by
  unfold afterNext next?
  by_cases hdone : g.remaining = 0
  · obtain ⟨-, hnil⟩ := next?_of_done hdone
    rw [if_pos hdone]
    dsimp only
    rw [hnil]
    exact ⟨rfl, rfl⟩
  · rw [if_neg hdone]
    dsimp only
    by_cases hle : g.size ≤ g.remaining
    · have hmin : min g.size g.remaining = g.size := if_pos hle
      rw [hmin, toList_of_full hsize hle]
      exact ⟨rfl, rfl⟩
    · have hlt : g.remaining < g.size := UInt32.not_le.mp hle
      have hmin : min g.size g.remaining = g.remaining := if_neg hle
      rw [hmin, toList_of_last hdone hlt, UInt32.sub_self]
      exact ⟨rfl, (next?_of_done rfl).2⟩

theorem size_iterate_afterNext (g : ChargeGroups) (n : ℕ) :
    (afterNext^[n] g).size = g.size := by
  induction n with
  | zero => rfl
  | succ n ih => rw [Function.iterate_succ_apply', size_afterNext, ih]

theorem toList_iterate_afterNext (g : ChargeGroups) (hsize : g.size ≠ 0)
    (n : ℕ) : (afterNext^[n] g).toList = g.toList.drop n := by
  induction n with
  | zero => rfl
  | succ n ih =>
      have hsize' : (afterNext^[n] g).size ≠ 0 := by
        rwa [size_iterate_afterNext]
      rw [Function.iterate_succ_apply', (next?_eq _ hsize').2, ih,
        List.tail_drop]

theorem mem_toList {g : ChargeGroups} {group : UInt32} (hsize : g.size ≠ 0)
    (h : group ∈ g.toList) : 0 < group ∧ group ≤ g.size := by
  have hpos : 0 < g.size := UInt32.pos_iff_ne_zero.mpr hsize
  rw [toList_eq, List.mem_append] at h
  obtain hfull | hlast := h
  · rw [List.eq_of_mem_replicate hfull]
    exact ⟨hpos, UInt32.le_refl _⟩
  · by_cases hrest : g.remaining % g.size = 0
    · rw [if_pos hrest] at hlast
      cases hlast
    · rw [if_neg hrest] at hlast
      rw [List.eq_of_mem_singleton hlast]
      exact ⟨UInt32.pos_iff_ne_zero.mpr hrest,
        UInt32.le_of_lt (UInt32.mod_lt _ hpos)⟩

theorem mem_dropLast_toList {g : ChargeGroups} {group : UInt32}
    (h : group ∈ g.toList.dropLast) : group = g.size := by
  rw [toList_eq] at h
  by_cases hrest : g.remaining % g.size = 0
  · rw [if_pos hrest, List.append_nil] at h
    exact List.eq_of_mem_replicate (List.mem_of_mem_dropLast h)
  · rw [if_neg hrest, List.dropLast_concat] at h
    exact List.eq_of_mem_replicate h

/-- The groups that cut a charge: one after the other by the calls, with their
number known after each call. -/
structure HandsOut (g : ChargeGroups) (charge size : UInt32)
    (groups : List UInt32) : Prop where
  sum_eq : (groups.map UInt32.toNat).sum = charge.toNat
  pos : ∀ group ∈ groups, 0 < group
  le : ∀ group ∈ groups, group ≤ max size 1
  full : ∀ group ∈ groups.dropLast, group = max size 1
  next?_eq : ∀ n, (afterNext^[n] g).next?.map Prod.fst = groups[n]?
  length_eq : ∀ n, (afterNext^[n] g).length.toNat = (groups.drop n).length
  next?_exact : ∀ n,
    Checked.next? (afterNext^[n] g) = some (afterNext^[n] g).next?
  length_exact : ∀ n,
    Checked.length? (afterNext^[n] g) = some (afterNext^[n] g).length

theorem handsOut_ofPlan (charge : UInt32) (plan : GroupPlan) :
    (ofPlan charge plan).HandsOut charge plan.size
      (ofPlan charge plan).toList := by
  have hsize := ofPlan_size_ne_zero charge plan
  have hsizes (n : ℕ) : (afterNext^[n] (ofPlan charge plan)).size ≠ 0 := by
    rwa [size_iterate_afterNext]
  constructor
  · exact sum_toList _
  · intro group hgroup
    exact (mem_toList hsize hgroup).1
  · intro group hgroup
    exact (mem_toList hsize hgroup).2
  · intro group hgroup
    exact mem_dropLast_toList hgroup
  · intro n
    rw [(next?_eq _ (hsizes n)).1, toList_iterate_afterNext _ hsize,
      List.head?_drop]
  · intro n
    rw [← length_toList _ (hsizes n), toList_iterate_afterNext _ hsize]
  · intro n
    exact Checked.next?_eq_some _
  · intro n
    exact Checked.ceilDiv?_eq_some _ (hsizes n)

end ChargeGroups

/-- Groups are of the least size, from the one that is asked for on, that keeps
to the limit.  However they were planned, they add up to the charge, all are full
but the last, and after any number of calls their length is the number of calls
that will still be answered.  No operation on words overflows or divides by
zero. -/
theorem GroupPlan.ofCharge_partitions (charge perStep limit : UInt32) :
    (ofCharge charge perStep limit).IsLeastFor charge.toNat perStep.toNat
      limit.toNat ∧
    Checked.plan? charge perStep limit =
      some (ofCharge charge perStep limit) ∧
    ∀ plan, (ChargeGroups.ofPlan charge plan).HandsOut charge plan.size
      (ChargeGroups.ofPlan charge plan).toList :=
  ⟨isLeastFor_ofCharge charge perStep limit,
    Checked.plan?_eq_some charge perStep limit,
    ChargeGroups.handsOut_ofPlan charge⟩

end CarrierTransport
