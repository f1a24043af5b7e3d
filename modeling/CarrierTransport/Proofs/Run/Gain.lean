import CarrierTransport.Proofs.Flight.Gain
import CarrierTransport.Proofs.Flight.Uniform
import CarrierTransport.Proofs.Run.Output

/-!
# Charges after multiplication

A charge is the size of its group times its gain, rounded.  As no gain is below
one, no group is recorded with fewer carriers than it had.
-/

namespace CarrierTransport

variable {σ : Type} [WordSource σ]

namespace Propagation

/-- The charge recorded for a group: the carriers it had or more, and within one
half of the group times the gain unless a charge cannot be as large. -/
structure Gained (group : UInt32) (gain : ℝ) (charge : UInt32) : Prop where
  group_le : group.toNat ≤ charge.toNat
  near : ⌊group.toNat * gain + 1 / 2⌋₊ < chargeMax →
    |(charge.toNat : ℝ) - group.toNat * gain| ≤ 1 / 2
  full : chargeMax ≤ ⌊group.toNat * gain + 1 / 2⌋₊ →
    charge.toNat = chargeMax

theorem toNat_gainedCharge (group : UInt32) (gain : ℝ) :
    (gainedCharge group gain).toNat =
      min ⌊group.toNat * gain + 1 / 2⌋₊ chargeMax := by
  have hmax : chargeMax = 2 ^ 32 - 1 := rfl
  exact UInt32.toNat_ofNat_of_lt' (by
    change min _ chargeMax < 2 ^ 32
    omega)

theorem gained_gainedCharge (group : UInt32) {gain : ℝ} (hgain : 1 ≤ gain) :
    Gained group gain (gainedCharge group gain) := by
  have hmax : chargeMax = 2 ^ 32 - 1 := rfl
  have hgroup : group.toNat < 2 ^ 32 := group.toNat_lt
  have hgrown : (group.toNat : ℝ) ≤ group.toNat * gain :=
    le_mul_of_one_le_right (Nat.cast_nonneg _) hgain
  have hrounded : group.toNat ≤ ⌊group.toNat * gain + 1 / 2⌋₊ :=
    Nat.le_floor (by linarith)
  constructor <;> rw [toNat_gainedCharge]
  case group_le => omega
  case near =>
    intro hlt
    have hsize : (0 : ℝ) ≤ group.toNat * gain := by positivity
    rw [min_eq_left hlt.le]
    exact Scalar.nearest_near hsize
  case full => exact min_eq_right

/-- Multiplication never loses carriers.  In exact arithmetic, with every model
of multiplication at every temperature above zero, the factors of the steps of a
flight are one or more, so that its gain never decreases from one on; after any
number of steps it is the exponential of the coefficients times the lengths of
the steps whose mean field reaches the threshold.  Each charge of an event is its
group or more, and within one half of the group times its gain unless it is as
large as a charge can be; together they are what was propagated or more. -/
theorem multiplication_never_loses {name : String} {temperature : ℝ}
    {parameters : Parameters ℝ} {m : Ionization ℝ}
    (htemperature : 0 < temperature)
    (hbuilt : Ionization.select name temperature parameters = .ok m) :
    (∀ t : Transport ℝ, t.models.ionization = m →
      ∀ carrier position start efield (source : σ) budget,
        t.field.electric position = .ok efield →
        let steps := (t.trace carrier start budget
          (t.launch position efield.norm source)).2
        m.Multiplies carrier 1 steps ∧
        ∀ recorder threshold o recorder' source' journal,
          (t.propagate budget carrier position start recorder source).runFrom
            threshold = (.ok (o, recorder', source'), journal) →
          1 ≤ o.gain ∧ o.gain = Real.exp (m.growth carrier steps)) ∧
    ∀ p : Propagation ℝ, p.models.ionization = m →
      ∀ budget deposits (source : σ) totals threshold output source' totals'
        journal,
        (p.runEvent budget deposits source totals).runFrom threshold =
          (.ok (output, source', totals'), journal) →
        ∃ flights, p.Carried budget source flights source' ∧
          output.charges.toList = flights.map p.record ∧
          (∀ f ∈ flights,
            Gained f.group f.outcome.gain (p.record f).charge) ∧
          output.summary.propagatedCharge ≤
            (output.charges.toList.map (·.charge.toNat)).sum := by
  have hmodel := Ionization.neverDamps_of_select htemperature hbuilt
  constructor
  · rintro t rfl carrier position start efield source budget hefield steps
    refine ⟨Transport.multiplies_launch hmodel budget, ?_⟩
    intro recorder threshold o recorder' source' journal hrun
    have hresult := Transport.result_of_run hrun
    exact ⟨Transport.one_le_gain_of_run hmodel hresult,
      Transport.gain_of_run hefield hresult⟩
  · rintro p rfl budget deposits source totals threshold output source' totals'
      journal hrun
    obtain ⟨entries, hcarried, -, -, haccounts⟩ := runEvent_accounts hrun
    have hgained : ∀ f ∈ EventEntry.flights entries,
        Gained f.group f.outcome.gain (p.record f).charge := by
      intro f hf
      obtain ⟨before, after, hflown⟩ := hcarried.flown f hf
      exact gained_gainedCharge f.group
        (Transport.one_le_gain_of_run hmodel hflown)
    refine ⟨EventEntry.flights entries, hcarried, haccounts.charges, hgained,
      ?_⟩
    rw [haccounts.propagatedCharge, haccounts.charges, List.map_map]
    exact List.sum_le_sum fun f hf => (hgained f hf).group_le

noncomputable def ionizingLayer : Propagation ℝ where
  config := Config.standard
  models :=
    { Transport.releasingLayer.models with
      ionization := ⟨.massey (.atTemperature 293.15), 1e-2⟩ }
  field := Transport.releasingLayer.field
  sensor := Transport.releasingLayer.sensor

theorem select_ionizingLayer :
    Ionization.select "massey" 293.15 .standard =
      .ok ionizingLayer.models.ionization :=
  Ionization.select_eq_ok rfl (by norm_num [Parameters.standard])

/-- Ten electrons that are deposited half a picosecond before the end. -/
noncomputable def lateElectrons : Deposit ℝ :=
  .ofLocal .zero .electron 10 24.9995

theorem multiplication_never_loses_ionizingLayer :
    ∃ output source' totals',
      (ionizingLayer.runEvent 1 [lateElectrons] Transport.middleWords
        .zero).result = .ok (output, source', totals') ∧
      output.summary.propagatedCharge = 10 ∧
      10 ≤ (output.charges.toList.map (·.charge.toNat)).sum := by
  have hwindow : ionizingLayer.config.integrationTime = 25 := by
    norm_num [ionizingLayer, Config.standard, Transport.ns_eq_one]
  have hmin : ionizingLayer.config.timestepMin = 0.001 := by
    norm_num [ionizingLayer, Config.standard, Transport.ns_eq_one]
  have hstart : lateElectrons.localTime <
      ionizingLayer.config.integrationTime := by
    rw [hwindow]
    norm_num [lateElectrons, Deposit.ofLocal]
  have hlast : ionizingLayer.config.integrationTime ≤
      lateElectrons.localTime + ionizingLayer.config.timestepMin := by
    rw [hwindow, hmin]
    norm_num [lateElectrons, Deposit.ofLocal]
  have haccepts : ionizingLayer.accepts lateElectrons = true := by
    refine Bool.and_eq_true_iff.mpr ⟨rfl, ?_⟩
    rw [Bool.not_eq_true', decide_eq_false_iff_not]
    exact not_lt.mpr hstart.le
  have hloads : [lateElectrons].zipIdx.flatMap ionizingLayer.loads =
      [(lateElectrons, 0, 10)] := by
    change ionizingLayer.loads (lateElectrons, 0) ++ [] = _
    rw [loads, if_pos haccepts, List.append_nil]
    rfl
  obtain ⟨o, recorder, source, hflown, -⟩ := Transport.exists_run
    (t := ionizingLayer.transport)
    (Config.validate_eq_ok_iff.mp Transport.validate_releasingLayer)
    Transport.select_releasing (Field.not_fails_uniform _ _ _)
    lateElectrons.carrier lateElectrons.localPosition hstart hlast
    ionizingLayer.recorder?
  have hrun := ionizingLayer.runEvent_eq_event 1 [lateElectrons]
    Transport.middleWords .zero none
  rw [event_eq, hloads, flyLoads, hflown] at hrun
  obtain ⟨-, hevents⟩ := multiplication_never_loses (σ := CyclicWords)
    (by norm_num) select_ionizingLayer
  obtain ⟨flights, -, -, -, hle⟩ := hevents ionizingLayer rfl _ _ _ _ _ _ _ _ _
    (Prod.ext hrun rfl)
  exact ⟨_, _, _, hrun, rfl, hle⟩

end Propagation

end CarrierTransport
