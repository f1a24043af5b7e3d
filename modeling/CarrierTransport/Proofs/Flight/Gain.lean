import CarrierTransport.Proofs.Silicon.Ionization
import CarrierTransport.Proofs.Scalar.Vec3
import CarrierTransport.Proofs.Flight.Course

/-!
# The gain of a flight

Each step multiplies the gain by the exponential of a number that is not
negative: the coefficient times the length of the step where the mean field
reaches the threshold, and zero elsewhere.  So the gain never decreases.
-/

namespace CarrierTransport

variable {σ : Type}

/-- The field magnitude of a step: the mean of those before and after it. -/
noncomputable def StepReport.meanField (r : StepReport ℝ σ) : ℝ :=
  (r.efield + r.before.efield) / 2.0

namespace Ionization

variable (m : Ionization ℝ) (carrier : Carrier)

/-- The coefficients times the lengths of those steps whose mean field reaches
the threshold, added up. -/
noncomputable def growth (reports : List (StepReport ℝ σ)) : ℝ :=
  ((reports.filter fun r => m.threshold ≤ r.meanField).map fun r =>
    m.model.coefficient carrier r.meanField * r.drift.step.norm).sum

theorem growth_cons (r : StepReport ℝ σ) (reports : List (StepReport ℝ σ)) :
    m.growth carrier (r :: reports) =
      m.exponent carrier r.meanField r.drift.step.norm +
        m.growth carrier reports := by
  unfold growth exponent
  by_cases hreached : m.threshold ≤ r.meanField
  · rw [if_pos hreached, List.filter_cons_of_pos (by simpa using hreached)]
    rfl
  · rw [if_neg hreached, List.filter_cons_of_neg (by simpa using hreached),
      zero_add]

/-- Steps that begin with a gain multiply it by factors of one or more, so that
it never decreases.  After any number of them it has grown with the exponential
of what they add up to. -/
structure Multiplies (gain : ℝ) (reports : List (StepReport ℝ σ)) :
    Prop where
  one_le_factor : ∀ r ∈ reports, 1 ≤ r.factor
  pairwise_le : (gain :: reports.map StepReport.gain).Pairwise (· ≤ ·)
  gains_eq : gain :: reports.map StepReport.gain =
    reports.inits.map fun steps => gain * Real.exp (m.growth carrier steps)

variable {m : Ionization ℝ} {carrier : Carrier}

theorem Multiplies.nil (gain : ℝ) :
    m.Multiplies carrier gain ([] : List (StepReport ℝ σ)) := by
  constructor <;> simp [growth]

theorem Multiplies.cons {gain : ℝ} {r : StepReport ℝ σ}
    {reports : List (StepReport ℝ σ)} (hgain : 0 ≤ gain)
    (hbefore : r.before.gain = gain)
    (hfactor : r.factor =
      Real.exp (m.exponent carrier r.meanField r.drift.step.norm))
    (hexponent : 0 ≤ m.exponent carrier r.meanField r.drift.step.norm)
    (h : m.Multiplies carrier r.gain reports) :
    m.Multiplies carrier gain (r :: reports) := by
  have hone : 1 ≤ r.factor := by
    rw [hfactor]
    exact Real.one_le_exp hexponent
  have hnext : r.gain = gain * r.factor := congrArg (· * r.factor) hbefore
  constructor
  case one_le_factor =>
    intro q hq
    obtain rfl | hq := List.mem_cons.mp hq
    · exact hone
    · exact h.one_le_factor q hq
  case pairwise_le =>
    have hgrows : gain ≤ r.gain := by
      rw [hnext]
      exact le_mul_of_one_le_right hgain hone
    have hle := h.pairwise_le
    refine List.pairwise_cons.mpr ⟨?_, hle⟩
    intro later hlater
    obtain rfl | hlater := List.mem_cons.mp hlater
    · exact hgrows
    · exact hgrows.trans (List.rel_of_pairwise_cons hle hlater)
  case gains_eq =>
    -- What is said of the later gains counts from `r.gain`.
    rw [List.map_cons, h.gains_eq, List.inits_cons, List.map_cons,
      List.map_map]
    refine congrArg₂ List.cons ?_ (List.map_congr_left fun steps _ => ?_)
    · simp [growth]
    · rw [Function.comp_apply, growth_cons, Real.exp_add, ← hfactor,
        ← mul_assoc, hnext]

theorem Multiplies.le_last {gain : ℝ} {reports : List (StepReport ℝ σ)}
    (h : m.Multiplies carrier gain reports) :
    gain ≤ gain * Real.exp (m.growth carrier reports) := by
  have hlast : gain * Real.exp (m.growth carrier reports) ∈
      gain :: reports.map StepReport.gain := by
    rw [h.gains_eq]
    exact List.mem_map.mpr
      ⟨reports, (List.mem_inits _ _).mpr (List.prefix_refl _), rfl⟩
  obtain heq | hlater := List.mem_cons.mp hlast
  · exact heq.ge
  · exact List.rel_of_pairwise_cons h.pairwise_le hlater

end Ionization

namespace Transport

variable {t : Transport ℝ} {carrier : Carrier} {start : ℝ}
variable {f g : Flight ℝ σ} {r : StepReport ℝ σ}

theorem gain_launch (position : Vec3 ℝ) (efield : ℝ) (source : σ) :
    (t.launch position efield source).gain = 1 := by
  change (1.0 : ℝ) = 1
  norm_num

variable [WordSource σ]

theorem Takes.factor_eq (h : t.Takes carrier start f r) :
    r.factor = Real.exp (t.models.ionization.exponent carrier r.meanField
      r.drift.step.norm) := by
  rw [h.factor, Ionization.gain_eq_exp, StepReport.meanField, h.before]

theorem Takes.efield_nonneg (h : t.Takes carrier start f r) :
    0 ≤ r.efield := by
  obtain ⟨e, -, hefield⟩ := h.efield
  rw [hefield]
  exact e.norm_nonneg

theorem Takes.exponent_nonneg (h : t.Takes carrier start f r)
    (hmodel : t.models.ionization.NeverDamps) (hefield : 0 ≤ f.efield) :
    0 ≤ t.models.ionization.exponent carrier r.meanField
      r.drift.step.norm := by
  refine hmodel.exponent_nonneg carrier ?_ r.drift.step.norm_nonneg
  have hafter := h.efield_nonneg
  rw [StepReport.meanField, h.before]
  positivity

/-- The steps of every flight multiply its gain, also if the flight fails. -/
theorem multiplies_trace (hmodel : t.models.ionization.NeverDamps)
    (hefield : 0 ≤ f.efield) (hgain : 0 ≤ f.gain) (budget : Nat) :
    t.models.ionization.Multiplies carrier f.gain
      (t.trace carrier start budget f).2 := by
  refine trace_induction (P := fun f reports => 0 ≤ f.efield → 0 ≤ f.gain →
    t.models.ionization.Multiplies carrier f.gain reports)
    (fun f _ _ => .nil f.gain) ?_ ?_ budget f hefield hgain
  · intro f r htakes hefield hgain
    exact .cons hgain (congrArg Flight.gain htakes.before) htakes.factor_eq
      (htakes.exponent_nonneg hmodel hefield) (.nil r.gain)
  · intro f r g reports htakes next ih hefield hgain
    obtain ⟨timestep, -, rfl⟩ := Option.map_eq_some_iff.mp next
    have hnext : 0 ≤ r.gain := by
      rw [StepReport.gain, htakes.before, htakes.factor_eq]
      positivity
    exact .cons hgain (congrArg Flight.gain htakes.before) htakes.factor_eq
      (htakes.exponent_nonneg hmodel hefield)
      (ih htakes.efield_nonneg hnext)

theorem Course.gain_eq {reports : List (StepReport ℝ σ)}
    (h : t.Course carrier start f reports g) :
    g.gain = f.gain * Real.exp (t.models.ionization.growth carrier reports) := by
  induction h with
  | done => simp [Ionization.growth]
  | @step f m g r reports flying taken next _ ih =>
      have htakes := takes_of_step taken
      have hgain : m.gain = f.gain * r.factor := by
        obtain ⟨timestep, -, rfl⟩ := Option.map_eq_some_iff.mp next
        exact congrArg (·.gain * r.factor) htakes.before
      rw [ih, hgain, htakes.factor_eq, Ionization.growth_cons, Real.exp_add,
        mul_assoc]

section Launch

variable {position efield : Vec3 ℝ} {source source' : σ}

theorem multiplies_launch (hmodel : t.models.ionization.NeverDamps)
    (budget : Nat) :
    t.models.ionization.Multiplies carrier 1
      (t.trace carrier start budget
        (t.launch position efield.norm source)).2 := by
  have hgain := t.gain_launch position efield.norm source
  rw [← hgain]
  apply multiplies_trace hmodel
  · exact efield.norm_nonneg
  · rw [hgain]
    exact zero_le_one

/-- The gain of a run that succeeds is that of all its steps. -/
theorem gain_of_run {budget : Nat} {recorder recorder' : Option (Recorder ℝ)}
    {o : Outcome ℝ} (hefield : t.field.electric position = .ok efield)
    (h : (t.propagate budget carrier position start recorder source).result =
      .ok (o, recorder', source')) :
    o.gain = Real.exp (t.models.ionization.growth carrier
      (t.trace carrier start budget
        (t.launch position efield.norm source)).2) := by
  obtain ⟨e, reports, f, he, hcourse, hdone, hlength, rfl, -, -⟩ :=
    propagate_result_eq_ok_iff.mp h
  cases hefield.symm.trans he
  rw [trace_eq_ok_iff.mpr ⟨hcourse, hdone, hlength⟩]
  have hgain := hcourse.gain_eq
  rwa [gain_launch, one_mul] at hgain

theorem one_le_gain_of_run (hmodel : t.models.ionization.NeverDamps)
    {budget : Nat} {recorder recorder' : Option (Recorder ℝ)} {o : Outcome ℝ}
    (h : (t.propagate budget carrier position start recorder source).result =
      .ok (o, recorder', source')) : 1 ≤ o.gain := by
  obtain ⟨efield, -, -, hefield, -⟩ := propagate_result_eq_ok_iff.mp h
  have hsteps : t.models.ionization.Multiplies carrier 1
      (t.trace carrier start budget
        (t.launch position efield.norm source)).2 :=
    multiplies_launch hmodel budget
  have hle := hsteps.le_last
  rwa [one_mul, ← gain_of_run hefield h] at hle

end Launch

end Transport

end CarrierTransport
