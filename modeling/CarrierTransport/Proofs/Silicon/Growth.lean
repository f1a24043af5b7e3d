import CarrierTransport.Proofs.Silicon.Ionization

/-!
# Growth of impact ionization with the field

Coefficients grow with the field, with one exception.  The two laws of holes in
the model of Van Overstraeten and De Man were fitted on their own, and close to
the field at which one takes over from the other the law of high fields may give
less than the law of low fields gave.
-/

namespace CarrierTransport

open CarrierTransport.Units

/-! ## Laws -/

/-- A law `A exp (-B / E)` grows with the field. -/
theorem mul_exp_div_le {rate field low high : ℝ} (hrate : 0 ≤ rate)
    (hfield : 0 ≤ field) (hlow : 0 < low) (hle : low ≤ high) :
    rate * Real.exp (-field / low) ≤ rate * Real.exp (-field / high) := by
  refine mul_le_mul_of_nonneg_left (Real.exp_le_exp.mpr ?_) hrate
  rw [neg_div, neg_div, neg_le_neg_iff]
  exact div_le_div_of_nonneg_left hfield hlow hle

/-- When one law gives less at `high` than another at `low`. -/
theorem mul_exp_div_lt_iff {rate field low rate' field' high : ℝ}
    (hrate : 0 < rate) (hrate' : 0 < rate') :
    rate' * Real.exp (-field' / high) < rate * Real.exp (-field / low) ↔
      field / low - field' / high < Real.log (rate / rate') := by
  have hexp : Real.exp (-field' / high) =
      Real.exp (field / low - field' / high) * Real.exp (-field / low) := by
    rw [← Real.exp_add]
    congr 1
    ring
  rw [Real.lt_log_iff_exp_lt (div_pos hrate hrate'), lt_div_iff₀ hrate', hexp,
    ← mul_assoc, mul_comm rate', mul_lt_mul_iff_left₀ (Real.exp_pos _)]

section Coefficients

variable {temperature low high : ℝ}

namespace Massey

theorem coefficient_le (h : 0 < temperature) (carrier : Carrier)
    (hlow : 0 < low) (hle : low ≤ high) :
    (atTemperature temperature).coefficient carrier low ≤
      (atTemperature temperature).coefficient carrier high :=
  mul_exp_div_le (rate_nonneg temperature carrier) (field_pos h carrier).le
    hlow hle

end Massey

namespace OkutoCrowell

theorem coefficient_le (h : 0 < temperature) (carrier : Carrier)
    (hlow : 0 < low) (hle : low ≤ high) :
    (atTemperature temperature).coefficient carrier low ≤
      (atTemperature temperature).coefficient carrier high := by
  have hrate := rate_nonneg h carrier
  have hfield := (field_pos h carrier).le
  have hhigh := hlow.trans_le hle
  unfold coefficient
  refine mul_le_mul (mul_le_mul_of_nonneg_left hle hrate)
    (Real.exp_le_exp.mpr ?_) (Real.exp_pos _).le
    (mul_nonneg hrate hhigh.le)
  rw [neg_mul, neg_mul, neg_le_neg_iff]
  exact mul_self_le_mul_self (div_nonneg hfield hhigh.le)
    (div_le_div_of_nonneg_left hfield hlow hle)

end OkutoCrowell

namespace VanOverstraeten

/-- The fields are on both sides of the switch, and so close that the law of
holes above it gives less at `high` than the law below it at `low`. -/
structure Drops (m : VanOverstraeten ℝ) (carrier : Carrier) (low high : ℝ) :
    Prop where
  hole : carrier = .hole
  below : low < m.holeSwitch
  above : m.holeSwitch ≤ high
  close : m.gamma * (m.holeLow.field / low - m.holeHigh.field / high) <
    Real.log (m.holeLow.rate / m.holeHigh.rate)

theorem coefficient_eq (m : VanOverstraeten ℝ) (carrier : Carrier)
    (efield : ℝ) :
    m.coefficient carrier efield = m.gamma * (m.law carrier efield).rate *
      Real.exp (-(m.gamma * (m.law carrier efield).field) / efield) := by
  rw [← neg_mul]
  rfl

theorem coefficient_le_of_law_eq (h : 0 < temperature) {carrier : Carrier}
    (hlaw : (atTemperature temperature).law carrier low =
      (atTemperature temperature).law carrier high)
    (hlow : 0 < low) (hle : low ≤ high) :
    (atTemperature temperature).coefficient carrier low ≤
      (atTemperature temperature).coefficient carrier high := by
  have hgamma := (gamma_pos h).le
  rw [coefficient_eq, coefficient_eq, hlaw]
  exact mul_exp_div_le
    (mul_nonneg hgamma (rate_nonneg temperature carrier high))
    (mul_nonneg hgamma (law_field_pos temperature carrier high).le) hlow hle

theorem law_hole_of_lt {m : VanOverstraeten ℝ} {efield : ℝ}
    (h : efield < m.holeSwitch) : m.law .hole efield = m.holeLow :=
  if_pos h

theorem law_hole_of_le {m : VanOverstraeten ℝ} {efield : ℝ}
    (h : m.holeSwitch ≤ efield) : m.law .hole efield = m.holeHigh :=
  if_neg (not_lt.mpr h)

/-- Holes have one law on each side of the switch, electrons one law. -/
theorem law_eq (m : VanOverstraeten ℝ) (carrier : Carrier) (hle : low ≤ high)
    (hside : ¬(carrier = .hole ∧ low < m.holeSwitch ∧ m.holeSwitch ≤ high)) :
    m.law carrier low = m.law carrier high := by
  cases carrier with
  | electron => rfl
  | hole =>
      obtain hhigh | hhigh := lt_or_ge high m.holeSwitch
      · rw [law_hole_of_lt hhigh, law_hole_of_lt (hle.trans_lt hhigh)]
      · have hlow : m.holeSwitch ≤ low :=
          not_lt.mp fun hbelow => hside ⟨rfl, hbelow, hhigh⟩
        rw [law_hole_of_le hhigh, law_hole_of_le hlow]

theorem coefficient_hole_le_iff (h : 0 < temperature)
    (hbelow : low < (atTemperature temperature).holeSwitch)
    (habove : (atTemperature temperature).holeSwitch ≤ high) :
    (atTemperature temperature).coefficient .hole low ≤
        (atTemperature temperature).coefficient .hole high ↔
      ¬(atTemperature temperature).Drops .hole low high := by
  have hgamma := gamma_pos h
  have hrate : 0 < (atTemperature temperature).holeLow.rate := by
    norm_num [atTemperature, cm, mm]
  have hrate' : 0 < (atTemperature temperature).holeHigh.rate := by
    norm_num [atTemperature, cm, mm]
  -- The factor `gamma` of both rates cancels in their quotient.
  rw [← not_lt, not_iff_not, coefficient_eq, coefficient_eq,
    law_hole_of_lt hbelow, law_hole_of_le habove,
    mul_exp_div_lt_iff (mul_pos hgamma hrate) (mul_pos hgamma hrate'),
    mul_div_mul_left _ _ hgamma.ne', mul_div_assoc, mul_div_assoc, ← mul_sub]
  exact ⟨fun hclose => ⟨rfl, hbelow, habove, hclose⟩, Drops.close⟩

theorem coefficient_le_iff (h : 0 < temperature) (carrier : Carrier)
    (hlow : 0 < low) (hle : low ≤ high) :
    (atTemperature temperature).coefficient carrier low ≤
        (atTemperature temperature).coefficient carrier high ↔
      ¬(atTemperature temperature).Drops carrier low high := by
  by_cases hacross : carrier = .hole ∧
      low < (atTemperature temperature).holeSwitch ∧
      (atTemperature temperature).holeSwitch ≤ high
  · obtain ⟨rfl, hbelow, habove⟩ := hacross
    exact coefficient_hole_le_iff h hbelow habove
  · refine iff_of_true (coefficient_le_of_law_eq h ?_ hlow hle) fun hdrops =>
      hacross ⟨hdrops.hole, hdrops.below, hdrops.above⟩
    exact law_eq _ carrier hle hacross

end VanOverstraeten

namespace IonizationModel

/-- The coefficient is less at `high` than at `low`: no model but the one with
two laws for holes has such fields. -/
def Drops (m : IonizationModel ℝ) (carrier : Carrier) (low high : ℝ) : Prop :=
  match m with
  | vanOverstraeten model => model.Drops carrier low high
  | _ => False

/-- The coefficient grows unless it drops, and drops only there. -/
theorem coefficient_le_iff {name : String} {m : IonizationModel ℝ}
    (h : 0 < temperature) (hbuilt : ofName? name temperature = some m)
    (carrier : Carrier) (hlow : 0 < low) (hle : low ≤ high) :
    m.coefficient carrier low ≤ m.coefficient carrier high ↔
      ¬m.Drops carrier low high := by
  unfold ofName? at hbuilt
  split at hbuilt <;> cases hbuilt
  case h_1 => exact iff_of_true le_rfl not_false
  case h_2 =>
    exact iff_of_true (Massey.coefficient_le h carrier hlow hle) not_false
  case h_3 | h_4 =>
    exact VanOverstraeten.coefficient_le_iff h carrier hlow hle
  case h_5 | h_6 =>
    exact iff_of_true (OkutoCrowell.coefficient_le h carrier hlow hle) not_false

end IonizationModel

namespace Ionization

variable {name : String} {parameters : Parameters ℝ} {m : Ionization ℝ}
variable {shorter longer : ℝ}

theorem gain_le (h : 0 < temperature)
    (hbuilt : select name temperature parameters = .ok m) (carrier : Carrier)
    (hlow : 0 < low) (hle : low ≤ high) (hshorter : 0 ≤ shorter)
    (hlonger : shorter ≤ longer)
    (hsteady : m.threshold ≤ low → ¬m.model.Drops carrier low high) :
    m.gain carrier low shorter ≤ m.gain carrier high longer := by
  have hmodel := ofName?_of_select hbuilt
  have hdamps := neverDamps_of_select h hbuilt
  have hhigh := hlow.trans_le hle
  have hlength := hshorter.trans hlonger
  rw [gain_eq_exp, gain_eq_exp, Real.exp_le_exp]
  by_cases hthreshold : m.threshold ≤ low
  · have hcoefficient := (IonizationModel.coefficient_le_iff h hmodel carrier
      hlow hle).mpr (hsteady hthreshold)
    rw [exponent, exponent, if_pos hthreshold, if_pos (hthreshold.trans hle)]
    exact mul_le_mul hcoefficient hlonger hshorter
      (hdamps carrier high hhigh.le)
  · rw [exponent, if_neg hthreshold]
    exact hdamps.exponent_nonneg carrier hhigh.le hlength

theorem gain_lt (h : 0 < temperature)
    (hbuilt : select name temperature parameters = .ok m) (carrier : Carrier)
    (hlow : 0 < low) (hle : low ≤ high) {length : ℝ} (hlength : 0 < length)
    (hthreshold : m.threshold ≤ low) (hdrops : m.model.Drops carrier low high) :
    m.gain carrier high length < m.gain carrier low length := by
  have hcoefficient : m.model.coefficient carrier high <
      m.model.coefficient carrier low := by
    by_contra hle'
    exact (IonizationModel.coefficient_le_iff h (ofName?_of_select hbuilt)
      carrier hlow hle).mp (not_lt.mp hle') hdrops
  rw [gain_eq_exp, gain_eq_exp, Real.exp_lt_exp, exponent, exponent,
    if_pos hthreshold, if_pos (hthreshold.trans hle)]
  exact mul_lt_mul_of_pos_right hcoefficient hlength

/-- In exact arithmetic the factor by which a step multiplies the charge grows
with the field and with the length of the step, across the threshold too, unless
the coefficient drops between the two fields.  It drops for holes in the model
of Van Overstraeten and De Man only, across the switch between their laws; above
the threshold steps of one length then give less in the higher field. -/
theorem gain_grows_unless_drops {name : String} {temperature : ℝ}
    {parameters : Parameters ℝ} {m : Ionization ℝ} (h : 0 < temperature)
    (hbuilt : select name temperature parameters = .ok m) (carrier : Carrier)
    {low high : ℝ} (hlow : 0 < low) (hle : low ≤ high) :
    ((m.threshold ≤ low → ¬m.model.Drops carrier low high) →
      ∀ shorter longer, 0 ≤ shorter → shorter ≤ longer →
        m.gain carrier low shorter ≤ m.gain carrier high longer) ∧
    (m.threshold ≤ low → m.model.Drops carrier low high →
      ∀ length, 0 < length →
        m.gain carrier high length < m.gain carrier low length) := by
  constructor
  · intro hsteady shorter longer hshorter hlonger
    exact gain_le h hbuilt carrier hlow hle hshorter hlonger hsteady
  · intro hthreshold hdrops length hlength
    exact gain_lt h hbuilt carrier hlow hle hlength hthreshold hdrops

/-! ### Holes at room temperature -/

/-- The model of Van Overstraeten and De Man at 300 kelvin. -/
noncomputable def room : Ionization ℝ :=
  ⟨.vanOverstraeten (.atTemperature 300.0), 1e-2⟩

theorem select_room :
    select "vanoverstraeten" 300.0 .standard = .ok room :=
  select_eq_ok rfl (by norm_num [Parameters.standard])

theorem gamma_room :
    (VanOverstraeten.atTemperature (300.0 : ℝ)).gamma = 1 := by
  have hgamma := VanOverstraeten.gamma_pos (by norm_num : (0 : ℝ) < 300.0)
  exact div_self (div_ne_zero_iff.mp hgamma.ne').2

/-- The coefficient drops where the laws meet, from a volt per centimetre below
the switch. -/
theorem drops_room : room.model.Drops .hole 0.0399999 0.04 := by
  have hexp : Real.exp 0.8576 < 1.582e6 / 6.71e5 := by
    have hbound := Real.exp_bound' (x := 0.8576) (by norm_num) (by norm_num)
      (n := 7) (by norm_num)
    norm_num [Finset.sum_range_succ, Nat.factorial] at hbound ⊢
    linarith
  refine ⟨rfl, ?_, ?_, ?_⟩
  · norm_num [VanOverstraeten.atTemperature, volt, megavolt, cm, mm]
  · norm_num [VanOverstraeten.atTemperature, volt, megavolt, cm, mm]
  · rw [gamma_room, one_mul]
    have hlog : Real.log (1.582e6 / 6.71e5) = Real.log (1.582e6 / cm /
        (6.71e5 / cm)) := by
      rw [div_div_div_cancel_right₀ cm_pos.ne']
    refine lt_of_lt_of_eq ?_ hlog
    rw [Real.lt_log_iff_exp_lt (by norm_num)]
    refine (Real.exp_le_exp.mpr ?_).trans_lt hexp
    norm_num [VanOverstraeten.atTemperature, volt, megavolt, cm, mm]

/-- A hole gains less in the field of the switch than in one a little below. -/
theorem gain_falls_at_switch :
    ∃ m : Ionization ℝ, select "vanoverstraeten" 300.0 .standard = .ok m ∧
      m.isEnabled = true ∧
      m.gain .hole 0.04 0.001 < m.gain .hole 0.0399999 0.001 := by
  refine ⟨room, select_room, rfl, gain_lt (by norm_num) select_room .hole
    (by norm_num) (by norm_num) (by norm_num) ?_ drops_room⟩
  norm_num [room]

theorem gain_grows_unless_drops_room :
    select "vanoverstraeten" 300.0 .standard = .ok room ∧
    room.gain .hole 0.03 0.001 ≤ room.gain .hole 0.05 0.002 ∧
    room.gain .hole 0.04 0.001 < room.gain .hole 0.0399999 0.001 := by
  have hsteady : ¬room.model.Drops .hole 0.03 0.05 := by
    rintro ⟨-, -, -, hclose⟩
    have hlog := Real.log_le_sub_one_of_pos (x := 1.582e6 / cm /
      (6.71e5 / cm)) (div_pos (div_pos (by norm_num) cm_pos)
        (div_pos (by norm_num) cm_pos))
    rw [gamma_room, one_mul] at hclose
    have hlt := hclose.trans_le hlog
    norm_num [VanOverstraeten.atTemperature, volt, megavolt, cm, mm] at hlt
  obtain ⟨hgrows, -⟩ := gain_grows_unless_drops (by norm_num) select_room .hole
    (by norm_num : (0 : ℝ) < 0.03) (by norm_num : (0.03 : ℝ) ≤ 0.05)
  obtain ⟨-, hfalls⟩ := gain_grows_unless_drops (by norm_num) select_room .hole
    (by norm_num : (0 : ℝ) < 0.0399999) (by norm_num : (0.0399999 : ℝ) ≤ 0.04)
  refine ⟨select_room,
    hgrows (fun _ => hsteady) _ _ (by norm_num) (by norm_num),
    hfalls ?_ drops_room _ (by norm_num)⟩
  norm_num [room]

end Ionization

end Coefficients

end CarrierTransport
