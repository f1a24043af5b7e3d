import CarrierTransport.Proofs.Flight.Uniform
import CarrierTransport.Proofs.Flight.Fate

/-!
# Recorded trajectories

A recorder has a point for each sampling time up to the latest one it was shown,
and each point is the first position that it was shown at that time or later.  A
flight shows its recorder where each of its steps begins, so in exact arithmetic
its points are these positions, one for each multiple of the interval.
-/

namespace CarrierTransport

namespace Recorder

section Samples

variable {α : Type} [Scalar α]

/-- The last sampling time that is not after `time`. -/
def slot (interval time : α) : Nat := Scalar.wholePart (time / interval)

/-- A recorder that is shown these positions at these times, in this order. -/
def sampleAll (r : Recorder α) (samples : List (α × Vec3 α)) : Recorder α :=
  samples.foldl (fun r s => r.sample s.1 s.2) r

@[simp] theorem interval_sample (r : Recorder α) (time : α)
    (position : Vec3 α) : (r.sample time position).interval = r.interval := rfl

theorem size_sample (r : Recorder α) (time : α) (position : Vec3 α) :
    (r.sample time position).points.size =
      max r.points.size (slot r.interval time + 1) := by
  simp only [sample, slot, Array.size_append, Array.size_replicate]
  omega

theorem getElem?_sample (r : Recorder α) (time : α) (position : Vec3 α)
    (k : Nat) :
    (r.sample time position).points[k]? =
      r.points[k]?.or
        (if k ≤ slot r.interval time then some position else none) := by
  simp only [sample, Array.getElem?_append, Array.getElem?_replicate]
  by_cases hk : k < r.points.size
  · simp [hk]
  · have hmissing : k - r.points.size <
        slot r.interval time + 1 - r.points.size ↔
          k ≤ slot r.interval time := by
      omega
    rw [if_neg hk, Array.getElem?_eq_none (Nat.le_of_not_lt hk),
      Option.none_or]
    exact if_congr hmissing rfl rfl

theorem size_sampleAll {r : Recorder α} {n : Nat} (h : r.points.size = 1 + n)
    (samples : List (α × Vec3 α)) :
    (r.sampleAll samples).points.size =
      1 + (samples.map fun s => slot r.interval s.1).foldl max n := by
  induction samples generalizing r n with
  | nil => exact h
  | cons s samples ih =>
      apply ih (r := r.sample s.1 s.2)
      simp only [size_sample, h]
      omega

/-- The first sample that reaches a sampling time stays its point. -/
theorem getElem?_sampleAll (r : Recorder α) (samples : List (α × Vec3 α))
    (k : Nat) :
    (r.sampleAll samples).points[k]? =
      r.points[k]?.or
        ((samples.find? fun s => k ≤ slot r.interval s.1).map (·.2)) := by
  induction samples generalizing r with
  | nil => simp [sampleAll]
  | cons s samples ih =>
      refine (ih (r.sample s.1 s.2)).trans ?_
      rw [getElem?_sample, Option.or_assoc, List.find?_cons, interval_sample]
      by_cases hk : k ≤ slot r.interval s.1 <;> simp [hk]

variable (interval : α) (samples : List (α × Vec3 α))

theorem size_sampleAll_start :
    ((start interval).sampleAll samples).points.size =
      (samples.map fun s => slot interval s.1).max?.elim 0 (1 + ·) := by
  cases samples with
  | nil => rfl
  | cons s samples =>
      rw [List.map_cons, List.max?_cons', Option.elim_some]
      apply size_sampleAll (r := (start interval).sample s.1 s.2)
      simp only [size_sample, start, Array.size_empty]
      omega

theorem getElem?_sampleAll_start (k : Nat) :
    ((start interval).sampleAll samples).points[k]? =
      (samples.find? fun s => k ≤ slot interval s.1).map (·.2) := by
  simp [getElem?_sampleAll, start]

end Samples

theorem le_slot_iff {interval time : ℝ} (hinterval : 0 < interval)
    (htime : 0 ≤ time) {k : ℕ} : k ≤ slot interval time ↔
      k * interval ≤ time := by
  rw [← le_div_iff₀ hinterval]
  exact Nat.le_floor_iff (div_nonneg htime hinterval.le)

end Recorder

variable {σ : Type}

/-- What a step shows a recorder. -/
def StepReport.sample (r : StepReport ℝ σ) : ℝ × Vec3 ℝ :=
  (r.before.motion.time, r.before.motion.position)

theorem Recorder.follow_eq_sampleAll (recorder : Recorder ℝ)
    (reports : List (StepReport ℝ σ)) :
    recorder.follow reports =
      recorder.sampleAll (reports.map StepReport.sample) := by
  simp [follow, sampleAll, StepReport.sample, List.foldl_map]

namespace Transport

/-- What a recorder holds that was shown these steps of a flight from
`position`. -/
structure Recorded (t : Transport ℝ) (position : Vec3 ℝ) (start interval : ℝ)
    (reports : List (StepReport ℝ σ)) (recorder : Recorder ℝ) : Prop where
  unmoved : reports = [] → recorder.points = #[]
  first : reports ≠ [] → recorder.points[0]? = some position
  size_eq : recorder.points.size =
    (reports.map fun r => ⌊r.before.motion.time / interval⌋₊).max?.elim 0
      (1 + ·)
  size_le : reports ≠ [] → (recorder.points.size : ℝ) ≤
    (t.config.integrationTime - start) / interval + 1
  points : ∀ k : ℕ, recorder.points[k]? =
    (reports.find? fun r => k * interval ≤ r.before.motion.time).map
      (·.before.motion.position)

/-- The state under which a flight with these steps is recorded. -/
structure Diagnosed (t : Transport ℝ) (start : ℝ)
    (reports : List (StepReport ℝ σ)) (o : Outcome ℝ) : Prop where
  unknown : o.diagnostic = .unknown ↔
    t.config.integrationTime ≤ start + o.time ∨
      ∃ r, reports.getLast? = some r ∧
        r.before.motion.position.z <
          t.sensor.backFace + 0.05 * t.sensor.size.z
  known : o.diagnostic ≠ .unknown → o.diagnostic = o.state
  stopped : o.diagnostic ≠ .motion

variable [WordSource σ] {t : Transport ℝ} {carrier : Carrier}
variable {position : Vec3 ℝ} {start efield : ℝ} {source : σ}
variable {reports : List (StepReport ℝ σ)} {f : Flight ℝ σ}

section Recorded

variable {name : String} {parameters : Parameters ℝ}

theorem Course.time_nonneg (hconfig : t.config.Accepted)
    (hbuilt : Detrapping.select name parameters = .ok t.models.detrapping)
    (h : t.Course carrier start (t.launch position efield source) reports f) :
    ∀ r ∈ reports, 0 ≤ r.before.motion.time := by
  intro r hr
  obtain ⟨before, after, rfl⟩ := List.append_of_mem hr
  obtain ⟨m, _, hbefore, -, taken, -⟩ := h.split
  have hmin := hbefore.min_le hconfig hbuilt
  have hpos := hconfig.timestepMin_pos
  rw [(takes_of_step taken).before]
  exact le_trans (by positivity) hmin

theorem Course.recorded (hconfig : t.config.Accepted)
    (hbuilt : Detrapping.select name parameters = .ok t.models.detrapping)
    (h : t.Course carrier start (t.launch position efield source) reports f)
    {interval : ℝ} (hinterval : 0 < interval) :
    t.Recorded position start interval reports
      ((Recorder.start interval).follow reports) := by
  have htime := h.time_nonneg hconfig hbuilt
  rw [Recorder.follow_eq_sampleAll]
  have hsize : ((Recorder.start interval).sampleAll
      (reports.map StepReport.sample)).points.size =
        (reports.map fun r => ⌊r.before.motion.time / interval⌋₊).max?.elim 0
          (1 + ·) := by
    rw [Recorder.size_sampleAll_start, List.map_map]
    rfl
  have hpoints (k : ℕ) : ((Recorder.start interval).sampleAll
      (reports.map StepReport.sample)).points[k]? =
        (reports.find? fun r => k * interval ≤ r.before.motion.time).map
          (·.before.motion.position) := by
    rw [Recorder.getElem?_sampleAll_start, List.find?_map, Option.map_map]
    refine congrArg (Option.map _) (List.find?_congr fun r hr => ?_)
    exact decide_eq_decide.mpr (Recorder.le_slot_iff hinterval (htime r hr))
  constructor
  case unmoved =>
    rintro rfl
    rfl
  case first =>
    intro hne
    rw [hpoints]
    cases h with
    | done => exact absurd rfl hne
    | step flying taken next rest =>
        have hbefore := (takes_of_step taken).before
        rw [List.find?_cons_of_pos, Option.map_some, hbefore]
        · rfl
        · rw [hbefore, time_launch]
          simp
  case size_eq => exact hsize
  case size_le =>
    intro hne
    rw [hsize]
    cases hmax : (reports.map fun r =>
        ⌊r.before.motion.time / interval⌋₊).max? with
    | none =>
        rw [List.max?_eq_none_iff, List.map_eq_nil_iff] at hmax
        exact absurd hmax hne
    | some m =>
        obtain ⟨r, hr, rfl⟩ := List.mem_map.mp (List.max?_mem hmax)
        have hfloor := Nat.floor_le (div_nonneg (htime r hr) hinterval.le)
        have hwindow := inWindow_of_isFlying (h.forall_takes r hr).1
        have hbound : r.before.motion.time / interval ≤
            (t.config.integrationTime - start) / interval := by
          gcongr
          linarith
        rw [Option.elim_some]
        push_cast
        linarith
  case points => exact hpoints

end Recorded

/-- A flight that has ended is in motion only if its window has closed, so no
flight is recorded as in motion. -/
theorem Course.diagnosed
    (h : t.Course carrier start (t.launch position efield source) reports f)
    (hdone : t.isFlying start f = false) :
    t.Diagnosed start reports (t.outcome start f) := by
  have hexpired (hmotion : f.state = .motion) :
      t.config.integrationTime ≤ start + f.motion.time := by
    rw [isFlying_of_motion hmotion] at hdone
    exact not_lt.mp (of_decide_eq_false hdone)
  obtain ⟨lost, hdiagnostic, hlost⟩ : ∃ lost : Bool,
      (t.outcome start f).diagnostic =
          (if lost then .unknown else f.state) ∧
        (lost = true ↔
          t.config.integrationTime ≤ start + f.motion.time ∨
            f.lastPosition.z <
              t.sensor.backFace + 0.05 * t.sensor.size.z) := by
    refine ⟨_, rfl, ?_⟩
    rw [Bool.or_eq_true, decide_eq_true_iff, decide_eq_true_iff]
    rfl
  have hlast : lost = true ↔
      t.config.integrationTime ≤ start + f.motion.time ∨
        ∃ r, reports.getLast? = some r ∧ r.before.motion.position.z <
          t.sensor.backFace + 0.05 * t.sensor.size.z := by
    rw [hlost]
    by_cases hne : reports = []
    · subst hne
      cases h
      exact iff_of_true (.inl (hexpired rfl)) (.inl (hexpired rfl))
    · obtain ⟨init, last, m, rfl, -, -, -, next⟩ := h.exists_last hne
      simp [(StepReport.after_eq next).2.1]
  cases lost with
  | true =>
      refine ⟨iff_of_true hdiagnostic (hlast.mp rfl), ?_, ?_⟩ <;>
        simp [hdiagnostic]
  | false =>
      have hseen := mt hlast.mpr Bool.false_ne_true
      refine ⟨iff_of_false ?_ hseen, fun _ => hdiagnostic, ?_⟩
      · rw [hdiagnostic]
        exact h.state_ne_unknown rfl
      · rw [hdiagnostic]
        exact fun hmotion => hseen (.inl (hexpired hmotion))

/-- A recorder has a point for each sampling time up to the latest sample, and
each point is the position of the earliest sample that reaches its time.  So in
exact arithmetic a flight that takes no step records nothing; any other records
its start, no more points than there are sampling times in the window of the
group, and at each sampling time the place where the first step at that time or
later begins.  It is recorded as unknown if it ended with the window or if its
last step began at the back of the sensor, and otherwise under its own state;
that is never motion. -/
theorem propagate_records_samples :
    (∀ {α : Type} [Scalar α] (interval : α) (samples : List (α × Vec3 α)),
      ((Recorder.start interval).sampleAll samples).points.size =
        (samples.map fun s => Recorder.slot interval s.1).max?.elim 0
          (1 + ·) ∧
      ∀ k, ((Recorder.start interval).sampleAll samples).points[k]? =
        (samples.find? fun s => k ≤ Recorder.slot interval s.1).map (·.2)) ∧
    (∀ interval time : ℝ, Recorder.slot interval time = ⌊time / interval⌋₊) ∧
    ∀ (t : Transport ℝ) (name : String) (parameters : Parameters ℝ),
      t.config.validate = .ok () →
      Detrapping.select name parameters = .ok t.models.detrapping →
      ∀ (carrier : Carrier) (position : Vec3 ℝ) (start interval : ℝ)
        (source : σ), 0 < interval →
      ∀ budget threshold o recorder' source' journal,
        (t.propagate budget carrier position start (some (.start interval))
          source).runFrom threshold =
            (.ok (o, recorder', source'), journal) →
        ∃ recorder efield reports f, recorder' = some recorder ∧
          t.Course carrier start (t.launch position efield source) reports
            f ∧
          o = t.outcome start f ∧ o.steps = reports.length ∧
          t.Recorded position start interval reports recorder ∧
          t.Diagnosed start reports o := by
  refine ⟨?_, fun _ _ => rfl, ?_⟩
  · intro α _ interval samples
    exact ⟨Recorder.size_sampleAll_start interval samples,
      Recorder.getElem?_sampleAll_start interval samples⟩
  · intro t name parameters hconfig hbuilt carrier position start interval
      source hinterval budget threshold o recorder' source' journal hrun
    have haccepted := Config.validate_eq_ok_iff.mp hconfig
    obtain ⟨efield, reports, f, -, hcourse, hdone, -, rfl, rfl, -⟩ :=
      course_of_run hrun
    exact ⟨_, efield.norm, reports, f, rfl, hcourse, rfl,
      hcourse.steps_outcome, hcourse.recorded haccepted hbuilt hinterval,
      hcourse.diagnosed hdone⟩

/-- A group that takes one step at the end of its window is recorded with one
point, its start, and as unknown. -/
theorem propagate_records_samples_releasingLayer :
    ∃ o recorder source' journal,
      (releasingLayer.propagate 1 .electron .zero 24.9995
        (some (.start 0.5)) middleWords).runFrom none =
          (.ok (o, some recorder, source'), journal) ∧
      recorder.points.size = 1 ∧ recorder.points[0]? = some .zero ∧
      o.diagnostic = .unknown := by
  have hconfig := validate_releasingLayer
  obtain ⟨o, recorder', source', hrun, hone⟩ :=
    exists_run_releasingLayer (some (.start 0.5))
  obtain ⟨-, -, hrecords⟩ := propagate_records_samples (σ := CyclicWords)
  obtain ⟨recorder, efield, reports, f, rfl, hcourse, rfl, hsteps, hrecorded,
    hdiagnosed⟩ := hrecords releasingLayer "constant" releasing hconfig
      select_releasing .electron .zero 24.9995 0.5 middleWords (by norm_num) 1
      none o recorder' source' _ (Prod.ext hrun rfl)
  have hlength : reports.length = 1 := hsteps.symm.trans hone
  have hne : reports ≠ [] := by
    rintro rfl
    cases hlength
  have hfirst := hrecorded.first hne
  refine ⟨_, recorder, source', _, Prod.ext hrun rfl, ?_, hfirst, ?_⟩
  · have hle := hrecorded.size_le hne
    norm_num [releasingLayer, ofParts, Config.standard, ns_eq_one] at hle
    have hsome := (Array.getElem?_eq_some_iff.mp hfirst).1
    have hlt : (recorder.points.size : ℝ) < 2 := by linarith
    norm_cast at hlt
    omega
  · apply hdiagnosed.unknown.mpr
    have hmin := hcourse.min_le (Config.validate_eq_ok_iff.mp hconfig)
      select_releasing
    rw [hlength] at hmin
    left
    norm_num [releasingLayer, ofParts, Config.standard, ns_eq_one, outcome]
      at hmin ⊢
    linarith

end Transport

end CarrierTransport
