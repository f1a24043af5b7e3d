import CarrierTransport.Proofs.Scalar.Vec3
import CarrierTransport.Proofs.Flight.Detrapping
import CarrierTransport.Proofs.Flight.Window

/-!
# Uniform fields

In a uniform field the drift velocity is the same everywhere.  In exact
arithmetic both methods of a step then give the same displacement, so a flight
is its drift and its diffusion added up, and its timesteps follow from the
distance to the top face alone.
-/

namespace CarrierTransport

variable {σ : Type}

/-! ## Steps at a constant velocity -/

/-- Both methods have as many weights as there are stages, and their weights add
up to one. -/
structure Tableau.Consistent (tableau : Tableau ℝ) : Prop where
  length_high : tableau.high.length = tableau.stages.length
  length_low : tableau.low.length = tableau.stages.length
  sum_high : tableau.high.sum = 1
  sum_low : tableau.low.sum = 1

theorem Tableau.consistent_ofScheme (scheme : Scheme) :
    (ofScheme scheme : Tableau ℝ).Consistent := by
  cases scheme <;> constructor <;> first
    | rfl
    | norm_num [ofScheme, fehlberg, cashKarp]

namespace Motion

theorem combine_of_forall {weights : List ℝ} {vectors : List (Vec3 ℝ)}
    {u : Vec3 ℝ} (hlength : weights.length ≤ vectors.length)
    (hu : ∀ v ∈ vectors, v = u) : combine weights vectors = weights.sum • u := by
  have hfold (sum : Vec3 ℝ) : (weights.zip vectors).foldl
      (fun sum (w, v) => sum + w • v) sum = sum + weights.sum • u := by
    induction weights generalizing vectors sum with
    | nil => simp
    | cons w weights ih =>
        cases vectors with
        | nil => simp at hlength
        | cons v vectors =>
            obtain ⟨rfl, hu⟩ := List.forall_mem_cons.mp hu
            rw [List.zip_cons_cons, List.foldl_cons,
              ih (Nat.le_of_succ_le_succ hlength) hu, List.sum_cons, add_smul,
              add_assoc]
  exact (hfold 0).trans (zero_add _)

theorem stages_of_constant (v : Vec3 ℝ) (motion : Motion ℝ)
    (stages : List (ℝ × List ℝ)) (taken : List (Vec3 ℝ)) :
    (motion.stages (fun _ _ => .ok v) stages taken :
        Except Fault (List (Vec3 ℝ))) =
      .ok (taken ++ List.replicate stages.length (motion.timestep • v)) := by
  induction stages generalizing taken with
  | nil => exact congrArg Except.ok (List.append_nil taken).symm
  | cons stage stages ih =>
      refine (ih (taken ++ [motion.timestep • v])).trans ?_
      rw [List.append_assoc]
      rfl

theorem advance_of_constant {tableau : Tableau ℝ}
    (htableau : tableau.Consistent) (v : Vec3 ℝ) (motion : Motion ℝ) :
    (motion.advance tableau (fun _ _ => .ok v) :
        Except Fault (Increment ℝ)) =
      .ok ⟨⟨motion.position + motion.timestep • v,
        motion.time + motion.timestep, motion.timestep⟩,
        motion.timestep • v, 0⟩ := by
  have hcombine {weights : List ℝ}
      (hlength : weights.length = tableau.stages.length)
      (hsum : weights.sum = 1) :
      combine weights ([] ++ List.replicate tableau.stages.length
        (motion.timestep • v)) = motion.timestep • v := by
    rw [List.nil_append, combine_of_forall (u := motion.timestep • v)
      (by rw [hlength, List.length_replicate])
      (fun _ => List.eq_of_mem_replicate), hsum, one_smul]
  unfold advance
  rw [stages_of_constant, ok_bind]
  simp only [hcombine htableau.length_high htableau.sum_high,
    hcombine htableau.length_low htableau.sum_low, sub_self]
  rfl

end Motion

/-- The timestep after a step that ends at this height, if its error is zero. -/
noncomputable def Config.exactTimestep (c : Config ℝ)
    (topFace speed timestep height : ℝ) : ℝ :=
  max c.timestepMin (min
    (if |topFace - height| < 2.0 * speed * timestep then 0.75 * timestep
      else 1.5 * timestep)
    c.timestepMax)

theorem Config.Accepted.nextTimestep?_eq {c : Config ℝ} (h : c.Accepted)
    (topFace speed timestep height : ℝ) :
    c.nextTimestep? timestep (topFace - height) (timestep * speed) 0 =
      some (c.exactTimestep topFace speed timestep height) := by
  have hstep : 2.0 * (timestep * speed) = 2.0 * speed * timestep := by
    rw [mul_comm timestep speed, mul_assoc]
  have hprecision : 0 < c.spatialPrecision := by
    have hpositive := (h.positive ("spatial_precision", c.spatialPrecision)
      (List.mem_cons_self ..)).2
    rwa [decimal_zero] at hpositive
  unfold nextTimestep?
  rw [Scalar.clamp?_eq (h.min_le_start.trans h.start_le_max), hstep,
    mul_zero, if_neg (not_lt.mpr hprecision.le), if_pos hprecision,
    mul_comm timestep 0.75, mul_comm timestep 1.5]
  rfl

namespace Transport

/-- In a uniform field carriers drift at the same velocity everywhere. -/
theorem exists_velocity_of_uniform (config : Config ℝ) (models : Models ℝ)
    (electric : Vec3 ℝ) (magnetic : Option (Vec3 ℝ)) (doping : Option ℝ)
    (sensor : Sensor ℝ) (carrier : Carrier) :
    ∃ v, ∀ p, (ofParts config models (.uniform electric magnetic doping)
      sensor).velocity carrier p = .ok v := by
  unfold velocity
  split
  · exact ⟨_, fun _ => rfl⟩
  · exact ⟨_, fun _ => rfl⟩

variable [WordSource σ] {t : Transport ℝ} {carrier : Carrier} {start : ℝ}
variable {v : Vec3 ℝ}

theorem Takes.drift_eq (htableau : t.tableau.Consistent)
    (hvelocity : ∀ p, t.velocity carrier p = .ok v)
    {f : Flight ℝ σ} {r : StepReport ℝ σ} (h : t.Takes carrier start f r) :
    r.drift = ⟨⟨f.motion.position + f.motion.timestep • v,
      f.motion.time + f.motion.timestep, f.motion.timestep⟩,
      f.motion.timestep • v, 0⟩ := by
  have hconstant : (fun _ p => t.velocity carrier p : ℝ → Vec3 ℝ → _) =
      fun _ _ => .ok v := funext fun _ => funext hvelocity
  have hdrift := h.drift
  rw [hconstant, Motion.advance_of_constant htableau] at hdrift
  exact (Except.ok.inj hdrift).symm

theorem Course.position_eq (htableau : t.tableau.Consistent)
    (hvelocity : ∀ p, t.velocity carrier p = .ok v)
    {f g : Flight ℝ σ} {reports : List (StepReport ℝ σ)}
    (h : t.Course carrier start f reports g) :
    g.motion.position = f.motion.position +
      (reports.map (·.before.motion.timestep)).sum • v +
      (reports.map (·.spread.displacement)).sum := by
  induction h with
  | done => simp
  | @step f m g r reports flying taken next _ ih =>
      have htakes := takes_of_step taken
      have hdrift := htakes.drift_eq htableau hvelocity
      have hposition : m.motion.position = f.motion.position +
          f.motion.timestep • v + r.spread.displacement := by
        rw [(StepReport.after_eq next).1, htakes.position, hdrift]
      rw [ih, hposition, List.map_cons, List.map_cons, List.sum_cons,
        List.sum_cons, htakes.before]
      module

theorem Takes.nextTimestep_eq (hconfig : t.config.Accepted)
    (htableau : t.tableau.Consistent)
    (hvelocity : ∀ p, t.velocity carrier p = .ok v)
    {f : Flight ℝ σ} {r : StepReport ℝ σ} (h : t.Takes carrier start f r) :
    r.nextTimestep = some (t.config.exactTimestep t.sensor.topFace v.z
      f.motion.timestep r.position.z) := by
  rw [h.nextTimestep, h.drift_eq htableau hvelocity, Vec3.norm_zero]
  exact hconfig.nextTimestep?_eq _ _ _ _

theorem Course.timesteps_eq (hconfig : t.config.Accepted)
    (htableau : t.tableau.Consistent)
    (hvelocity : ∀ p, t.velocity carrier p = .ok v)
    {f g : Flight ℝ σ} {reports : List (StepReport ℝ σ)}
    (h : t.Course carrier start f reports g) :
    reports.map (·.before.motion.timestep) ++ [g.motion.timestep] =
      (reports.map (·.position.z)).scanl
        (t.config.exactTimestep t.sensor.topFace v.z) f.motion.timestep := by
  induction h with
  | done => simp
  | @step f m g r reports flying taken next _ ih =>
      have htakes := takes_of_step taken
      have hnext : m.motion.timestep = t.config.exactTimestep
          t.sensor.topFace v.z f.motion.timestep r.position.z := by
        obtain ⟨timestep, htimestep, rfl⟩ := Option.map_eq_some_iff.mp next
        rw [htakes.nextTimestep_eq hconfig htableau hvelocity] at htimestep
        exact (Option.some.inj htimestep).symm
      rw [List.map_cons, List.cons_append, ih, List.map_cons, List.scanl_cons,
        htakes.before, hnext]

/-- In exact arithmetic a flight in a uniform field is its drift and its
diffusion.  After any number of steps its position is the start, moved by the
velocity there for the sum of the timesteps and by the displacements of the
diffusion; every error is zero, so that each timestep is the one before it,
shorter close to the top face and longer elsewhere, within the bounds; and its
time is that of the timesteps and the delays.  Another model of detrapping
changes neither a position nor a timestep of as many steps.  The outcome of a
run is that of such steps. -/
theorem propagate_in_uniform_field (config : Config ℝ) (models : Models ℝ)
    (electric : Vec3 ℝ) (magnetic : Option (Vec3 ℝ)) (doping : Option ℝ)
    (sensor : Sensor ℝ) (hconfig : config.validate = .ok ())
    (carrier : Carrier) (position : Vec3 ℝ) (start : ℝ) (source : σ) :
    let t := ofParts config models (.uniform electric magnetic doping) sensor
    ∃ v, (∀ p, t.velocity carrier p = .ok v) ∧
      (∀ efield reports f,
        t.Course carrier start (t.launch position efield source) reports f →
        f.motion.position = position +
          (reports.map (·.before.motion.timestep)).sum • v +
          (reports.map (·.spread.displacement)).sum ∧
        (∀ r ∈ reports, r.drift.error = 0) ∧
        reports.map (·.before.motion.timestep) ++ [f.motion.timestep] =
          (reports.map (·.position.z)).scanl
            (config.exactTimestep sensor.topFace v.z) config.timestepStart ∧
        f.motion.time = (reports.map (·.before.motion.timestep)).sum +
          (reports.filterMap StepReport.delay?).sum) ∧
      (∀ name times detrapping efield reports others f g,
        t.Course carrier start (t.launch position efield source) reports f →
        (t.withDetrapping name times detrapping).Course carrier start
          (t.launch position efield source) others g →
        others.length = reports.length →
        others.map (·.position) = reports.map (·.position) ∧
        others.map (·.before.motion.timestep) =
          reports.map (·.before.motion.timestep) ∧
        g.motion.position = f.motion.position ∧
        g.motion.timestep = f.motion.timestep) ∧
      ∀ budget recorder threshold o recorder' source' journal,
        (t.propagate budget carrier position start recorder source).runFrom
          threshold = (.ok (o, recorder', source'), journal) →
        ∃ reports f,
          t.Course carrier start (t.launch position electric.norm source)
            reports f ∧
          o = t.outcome start f ∧ o.steps = reports.length := by
  intro t
  have haccepted : t.config.Accepted := Config.validate_eq_ok_iff.mp hconfig
  have htableau : t.tableau.Consistent :=
    Tableau.consistent_ofScheme config.scheme
  obtain ⟨v, hvelocity⟩ := exists_velocity_of_uniform config models electric
    magnetic doping sensor carrier
  refine ⟨v, hvelocity, ?_, ?_, ?_⟩
  · intro efield reports f hcourse
    refine ⟨hcourse.position_eq htableau hvelocity, ?_,
      hcourse.timesteps_eq haccepted htableau hvelocity,
      hcourse.time_eq_of_launch⟩
    intro r hr
    obtain ⟨-, htakes⟩ := hcourse.forall_takes r hr
    rw [htakes.drift_eq htableau hvelocity]
  · intro name times detrapping efield reports others f g hf hg hlength
    obtain ⟨hreports, hend⟩ :=
      (t.mirrors_withDetrapping name times detrapping carrier start).course hf
        hg hlength rfl
    have hmotion : g.motion.untimed = f.motion.untimed :=
      (congrArg Flight.motion hend :)
    exact ⟨map_congr_of_map hreports (·.position),
      map_congr_of_map hreports (·.before.motion.timestep),
      (congrArg Motion.position hmotion :),
      (congrArg Motion.timestep hmotion :)⟩
  · intro budget recorder threshold o recorder' source' journal hrun
    obtain ⟨efield, reports, f, hefield, hcourse, -, -, rfl, -, -⟩ :=
      course_of_run hrun
    cases hefield
    exact ⟨reports, f, hcourse, rfl, hcourse.steps_outcome⟩

/-! ## The first step in the releasing layer -/

theorem displacement_middleWords {mobility temperature timestep : ℝ}
    {spread : Spread ℝ} {source : CyclicWords}
    (h : diffuse middleWords mobility temperature timestep =
      some (spread, source)) : spread.displacement = 0 := by
  have hnormal (width : ℝ) :
      Random.normal width middleWords = some (0, middleWords) := by
    simp only [Random.normal, standardNormal_middleWords, Option.map_some,
      mul_zero, add_zero]
    norm_num
  have hvector (width : ℝ) : normalVector width middleWords =
      some ((⟨0, 0, 0⟩ : Vec3 ℝ), middleWords) := by
    simp [normalVector, hnormal]
  unfold diffuse at h
  dsimp only at h
  split at h
  · rw [hvector] at h
    cases h
    ext <;> simp [Spread.displacement]
  · cases h
    rfl

/-- A flight in the middle of the words takes a step, if it goes on and its
field has answers, and is not moved aside by it. -/
theorem exists_step {t : Transport ℝ} (carrier : Carrier) {start : ℝ}
    (hfield : ∀ fault, ¬t.field.Fails fault) {f : Flight ℝ CyclicWords}
    (hsource : f.source = middleWords)
    (htimestep : t.config.Allows f.motion.timestep)
    (flying : t.isFlying start f = true) :
    ∃ r g, t.Course carrier start f [r] g ∧ r.before = f ∧
      r.position = g.motion.position ∧ r.spread.displacement = 0 := by
  cases taken : t.step carrier start f with
  | error fault =>
      cases stepFails_of_step taken with
      | field hfails => exact absurd hfails (hfield fault)
      | sample hsample =>
          obtain ⟨mobility, hnone⟩ := hsample
          rw [hsource] at hnone
          exact absurd hnone (diffuse_middleWords _ _ _)
  | ok r =>
      have htakes := takes_of_step taken
      obtain ⟨timestep, hnext, -⟩ := htakes.allows_next htimestep
      obtain ⟨near, far, source, -, hspread, -⟩ := htakes.draws
      rw [hsource] at hspread
      obtain ⟨g, next⟩ : ∃ g, r.after? = some g :=
        ⟨_, Option.map_eq_some_iff.mpr ⟨timestep, hnext, rfl⟩⟩
      exact ⟨r, g, .step flying taken next (.done g), htakes.before,
        (StepReport.after_eq next).1.symm, displacement_middleWords hspread⟩

/-- A group that is deposited when less than the shortest timestep is left takes
one step, if its field has answers. -/
theorem exists_run {t : Transport ℝ} {name : String}
    {parameters : Parameters ℝ} (hconfig : t.config.Accepted)
    (hbuilt : Detrapping.select name parameters = .ok t.models.detrapping)
    (hfield : ∀ fault, ¬t.field.Fails fault) (carrier : Carrier)
    (position : Vec3 ℝ) {start : ℝ}
    (hstart : start < t.config.integrationTime)
    (hlast : t.config.integrationTime ≤ start + t.config.timestepMin)
    (recorder : Option (Recorder ℝ)) :
    ∃ o recorder' source',
      (t.propagate 1 carrier position start recorder middleWords).result =
        .ok (o, recorder', source') ∧ o.steps = 1 := by
  cases hefield : t.field.electric position with
  | error fault => exact absurd (.electric hefield) (hfield fault)
  | ok efield =>
      have flying : t.isFlying start
          (t.launch position efield.norm middleWords) = true := by
        refine Bool.and_eq_true_iff.mpr ⟨rfl, decide_eq_true ?_⟩
        rw [time_launch, add_zero]
        exact hstart
      obtain ⟨r, f, hcourse, -⟩ := exists_step carrier hfield rfl
        hconfig.allows_start flying
      have hdone : t.isFlying start f = false := by
        refine Bool.eq_false_iff.mpr fun more => ?_
        have hmin := hcourse.min_le hconfig hbuilt
        have hwindow := inWindow_of_isFlying more
        simp only [List.length_singleton, Nat.cast_one, one_mul] at hmin
        linarith
      refine ⟨t.outcome start f, _, f.source,
        propagate_result_eq_ok_iff.mpr ⟨efield, [r], f, hefield, hcourse,
          hdone, Nat.le_refl 1, rfl, rfl, rfl⟩, ?_⟩
      exact hcourse.steps_eq

theorem exists_run_releasingLayer (recorder : Option (Recorder ℝ)) :
    ∃ o recorder' source',
      (releasingLayer.propagate 1 .electron .zero 24.9995 recorder
        middleWords).result = .ok (o, recorder', source') ∧ o.steps = 1 := by
  apply exists_run (Config.validate_eq_ok_iff.mp validate_releasingLayer)
    select_releasing (Field.not_fails_uniform _ _ _)
  · norm_num [releasingLayer, ofParts, Config.standard, ns_eq_one]
  · norm_num [releasingLayer, ofParts, Config.standard, ns_eq_one]

/-- The releasing layer without releases. -/
noncomputable def holdingLayer : Transport ℝ :=
  releasingLayer.withDetrapping "none" ⟨none, none⟩ ⟨none⟩

/-- In the releasing layer a group drifts by five micrometres in its first step,
whether groups are released or not, and its next timestep is half as long
again. -/
theorem propagate_in_uniform_field_releasingLayer :
    releasingLayer.config.validate = .ok () ∧
    ∃ reports others f g, reports.length = 1 ∧
      releasingLayer.Course .electron 0
        (releasingLayer.launch .zero 0.5 middleWords) reports f ∧
      holdingLayer.Course .electron 0
        (releasingLayer.launch .zero 0.5 middleWords) others g ∧
      f.motion.position.z = 0.005 ∧ f.motion.timestep = 0.015 ∧
      g.motion.position = f.motion.position := by
  have hconfig := validate_releasingLayer
  have hstart := (Config.validate_eq_ok_iff.mp hconfig).allows_start
  have hfield : ∀ fault, ¬releasingLayer.field.Fails fault :=
    Field.not_fails_uniform _ _ _
  have flying : releasingLayer.isFlying 0
      (releasingLayer.launch .zero 0.5 middleWords) = true := by
    refine Bool.and_eq_true_iff.mpr ⟨rfl, decide_eq_true ?_⟩
    rw [time_launch]
    norm_num [releasingLayer, ofParts, Config.standard, ns_eq_one]
  obtain ⟨r, f, hf, hr, hplace, hquiet⟩ := exists_step
    (t := releasingLayer) .electron hfield rfl hstart flying
  obtain ⟨q, g, hg, -⟩ := exists_step (t := holdingLayer)
    (f := releasingLayer.launch .zero 0.5 middleWords) .electron hfield rfl
    hstart flying
  obtain ⟨v, hvelocity, hcourse, hother, -⟩ := propagate_in_uniform_field
    Config.standard releasingLayer.models ⟨0.0, 0.0, -0.5⟩ none none
    releasingLayer.sensor hconfig .electron .zero 0 middleWords
  obtain ⟨hposition, -, htimesteps, -⟩ := hcourse 0.5 [r] f hf
  obtain ⟨-, -, hsame, -⟩ := hother "none" ⟨none, none⟩ ⟨none⟩ 0.5 [r] [q] f g
    hf hg rfl
  have hv : v.z = 0.5 := by
    have hdrift : Except.ok (drift .electron (1.0 : ℝ) ⟨0.0, 0.0, -0.5⟩) =
        Except.ok v := hvelocity .zero
    rw [← Except.ok.inj hdrift]
    norm_num [drift, Carrier.sign]
  have htimestep : r.before.motion.timestep = 0.01 := by
    rw [hr]
    norm_num [releasingLayer, launch, Motion.start, ofParts, Config.standard,
      ns_eq_one]
  have hz : f.motion.position.z = 0.005 := by
    rw [hposition]
    simp only [List.map_cons, List.map_nil, List.sum_singleton, htimestep,
      hquiet, add_zero, Vec3.add_z, Vec3.smul_z, hv]
    norm_num [Vec3.zero]
  have hnext : f.motion.timestep = 0.015 := by
    simp only [List.map_cons, List.map_nil, List.cons_append, List.nil_append,
      List.scanl_cons, List.scanl_nil, List.cons.injEq, and_true, hplace,
      hz, hv] at htimesteps
    rw [htimesteps.2]
    norm_num [Config.exactTimestep, releasingLayer, ofParts, Config.standard,
      ns_eq_one, Box.sensor, Sensor.topFace, Vec3.zero, abs_of_pos]
  exact ⟨hconfig, [r], [q], f, g, rfl, hf, hg, hz, hnext, hsame⟩

end Transport

end CarrierTransport
