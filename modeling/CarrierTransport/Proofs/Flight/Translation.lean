import CarrierTransport.Proofs.Flight.Uniform

/-!
# Moved sensors

It does not matter where a sensor sits.  In exact arithmetic, when a sensor is
moved with its fields and its deposits, every position of a flight moves with
them and nothing else of the flight changes.
-/

namespace CarrierTransport

variable {σ : Type}

/-! ## Sensors and fields -/

/-- The field with these answers at places moved by `a`. -/
noncomputable def Field.moved (field : Field ℝ) (a : Vec3 ℝ) : Field ℝ :=
  { field with
    electric := fun p => field.electric (p - a)
    magnetic := fun p => field.magnetic (p - a)
    doping := fun p => field.doping (p - a) }

/-- The second shape is the first one, moved by `a`. -/
structure Sensor.IsMoved (s : Sensor ℝ) (a : Vec3 ℝ) (s' : Sensor ℝ) :
    Prop where
  contains : ∀ p, s'.contains p = s.contains (p - a)
  intercept : ∀ p q, s'.intercept p q = s.intercept (p - a) (q - a) + a
  center : s'.center = s.center + a
  size : s'.size = s.size

namespace Sensor.IsMoved

variable {s s' : Sensor ℝ} {a : Vec3 ℝ}

theorem contains_add (h : s.IsMoved a s') (p : Vec3 ℝ) :
    s'.contains (p + a) = s.contains p := by
  rw [h.contains, add_sub_cancel_right]

theorem intercept_add (h : s.IsMoved a s') (p q : Vec3 ℝ) :
    s'.intercept (p + a) (q + a) = s.intercept p q + a := by
  rw [h.intercept, add_sub_cancel_right, add_sub_cancel_right]

theorem topFace (h : s.IsMoved a s') : s'.topFace = s.topFace + a.z := by
  simp only [Sensor.topFace, h.center, h.size, Vec3.add_z]
  exact add_right_comm _ _ _

theorem backFace (h : s.IsMoved a s') : s'.backFace = s.backFace + a.z := by
  simp only [Sensor.backFace, h.center, h.size, Vec3.add_z]
  exact add_sub_right_comm _ _ _

end Sensor.IsMoved

namespace Box

theorem between_add (low high a x : ℝ) :
    between (low + a) (high + a) x = between low high (x - a) := by
  simp [between, le_sub_iff_add_le]

theorem cutAt_add (low high a inside outside part : ℝ) :
    cutAt (low + a) (high + a) inside outside part =
      cutAt low high (inside - a) (outside - a) part := by
  have hpart (face : ℝ) : face + a - inside = face - (inside - a) := by ring
  simp only [cutAt, faceBeyond?, sub_sub_sub_cancel_right, lt_sub_iff_add_lt,
    sub_lt_iff_lt_add]
  split_ifs <;> simp [hpart]

theorem low_withCenter (b : Box ℝ) (center : Vec3 ℝ) :
    (b.withCenter center).low = b.low + (center - b.center) := by
  simp only [low, withCenter]
  abel

theorem high_withCenter (b : Box ℝ) (center : Vec3 ℝ) :
    (b.withCenter center).high = b.high + (center - b.center) := by
  simp only [high, withCenter]
  abel

theorem isMoved_withCenter (b : Box ℝ) (center : Vec3 ℝ)
    (offset offset' : Option (Vec3 ℝ)) :
    (b.sensor offset).IsMoved (center - b.center)
      ((b.withCenter center).sensor offset') := by
  constructor
  case contains =>
    intro p
    simp only [sensor, contains, low_withCenter, high_withCenter, Vec3.add_x,
      Vec3.add_y, Vec3.add_z, between_add, Vec3.sub_x, Vec3.sub_y, Vec3.sub_z]
  case intercept =>
    intro p q
    have hpart : (b.withCenter center).exitPart p q =
        b.exitPart (p - (center - b.center)) (q - (center - b.center)) := by
      simp only [exitPart, low_withCenter, high_withCenter, Vec3.add_x,
        Vec3.add_y, Vec3.add_z, cutAt_add, Vec3.sub_x, Vec3.sub_y, Vec3.sub_z]
    simp only [sensor, intercept, hpart, sub_sub_sub_cancel_right]
    abel
  case center =>
    simp [sensor, withCenter]
  case size => rfl

end Box

/-! ## Flights -/

section Moved

variable (a : Vec3 ℝ)

noncomputable def Motion.moved (m : Motion ℝ) : Motion ℝ :=
  { m with position := m.position + a }

noncomputable def Increment.moved (i : Increment ℝ) : Increment ℝ :=
  { i with after := i.after.moved a }

noncomputable def Flight.moved (f : Flight ℝ σ) : Flight ℝ σ :=
  { f with motion := f.motion.moved a, lastPosition := f.lastPosition + a }

noncomputable def StepReport.moved (r : StepReport ℝ σ) : StepReport ℝ σ :=
  { r with
    before := r.before.moved a
    drift := r.drift.moved a
    position := r.position + a }

noncomputable def Outcome.moved (o : Outcome ℝ) : Outcome ℝ :=
  { o with position := o.position + a }

noncomputable def Recorder.moved (r : Recorder ℝ) : Recorder ℝ :=
  { r with points := r.points.map (· + a) }

theorem StepReport.after?_moved (r : StepReport ℝ σ) :
    (r.moved a).after? = r.after?.map (Flight.moved a) := by
  simp only [after?, Option.map_map]
  rfl

namespace Recorder

@[simp] theorem moved_start (interval : ℝ) :
    (start interval).moved a = start interval := by
  simp [moved, start]

theorem sample_moved (r : Recorder ℝ) (time : ℝ) (position : Vec3 ℝ) :
    (r.moved a).sample time (position + a) =
      (r.sample time position).moved a := by
  simp [moved, sample]

theorem follow_moved (r : Recorder ℝ) (reports : List (StepReport ℝ σ)) :
    (r.moved a).follow (reports.map (StepReport.moved a)) =
      (r.follow reports).moved a := by
  unfold follow
  induction reports generalizing r with
  | nil => rfl
  | cons report reports ih =>
      rw [List.map_cons, List.foldl_cons, List.foldl_cons, ← ih]
      exact congrArg (List.foldl _ · _) (r.sample_moved a _ _)

end Recorder

end Moved

namespace Motion

variable {velocity velocity' : Vec3 ℝ → Except Fault (Vec3 ℝ)} {a : Vec3 ℝ}

/-- All stages of a step see the same velocities where the velocities have moved
with the position. -/
theorem stages_moved (h : ∀ p, velocity' (p + a) = velocity p)
    (m : Motion ℝ) (stages : List (ℝ × List ℝ)) (taken : List (Vec3 ℝ)) :
    (m.moved a).stages (fun _ p => velocity' p) stages taken =
      m.stages (fun _ p => velocity p) stages taken := by
  induction stages generalizing taken with
  | nil => rfl
  | cons stage stages ih =>
      obtain ⟨node, weights⟩ := stage
      have hplace : (m.moved a).position + combine weights taken =
          m.position + combine weights taken + a :=
        add_right_comm _ _ _
      simp only [Motion.stages, hplace, h]
      exact bind_congr fun v => ih _

theorem advance_moved (h : ∀ p, velocity' (p + a) = velocity p)
    (m : Motion ℝ) (tableau : Tableau ℝ) :
    (m.moved a).advance tableau (fun _ p => velocity' p) =
      Increment.moved a <$> m.advance tableau (fun _ p => velocity p) := by
  unfold advance
  rw [stages_moved h]
  simp only [map_bind, map_pure]
  refine bind_congr fun taken => congrArg Except.ok ?_
  simp only [Increment.moved, moved, add_right_comm]

end Motion

namespace Transport

/-- The transport in a sensor that was moved by `a` with its fields. -/
noncomputable def moved (t : Transport ℝ) (a : Vec3 ℝ) (sensor : Sensor ℝ) :
    Transport ℝ :=
  { t with field := t.field.moved a, sensor := sensor }

variable {t : Transport ℝ} {a : Vec3 ℝ} {sensor : Sensor ℝ}

theorem electric_moved (p : Vec3 ℝ) :
    (t.moved a sensor).field.electric (p + a) = t.field.electric p :=
  congrArg t.field.electric (add_sub_cancel_right p a)

theorem doping_moved (p : Vec3 ℝ) :
    (t.moved a sensor).field.doping (p + a) = t.field.doping p :=
  congrArg t.field.doping (add_sub_cancel_right p a)

theorem velocity_moved (carrier : Carrier) (p : Vec3 ℝ) :
    (t.moved a sensor).velocity carrier (p + a) = t.velocity carrier p := by
  simp only [velocity, moved, Field.moved, isMagnetic, add_sub_cancel_right]
  rfl

theorem outcome_moved (hsensor : t.sensor.IsMoved a sensor) (start : ℝ)
    (f : Flight ℝ σ) :
    (t.moved a sensor).outcome start (f.moved a) =
      (t.outcome start f).moved a := by
  have hposition : ((t.moved a sensor).outcome start (f.moved a)).position =
      (t.outcome start f).position + a := by
    by_cases hhalted : f.state = .halted
    · rw [outcome_position_of_halted t start hhalted, ← hsensor.intercept_add]
      exact outcome_position_of_halted (t.moved a sensor) start
        (f := f.moved a) hhalted
    · rw [outcome_position_of_ne t start hhalted]
      exact outcome_position_of_ne (t.moved a sensor) start
        (f := f.moved a) hhalted
  have hback : f.lastPosition.z + a.z <
        sensor.backFace + backsideShare * sensor.size.z ↔
      f.lastPosition.z <
        t.sensor.backFace + backsideShare * t.sensor.size.z := by
    rw [hsensor.backFace, hsensor.size, add_right_comm]
    exact add_lt_add_iff_right a.z
  have hdiagnostic :
      ((t.moved a sensor).outcome start (f.moved a)).diagnostic =
        (t.outcome start f).diagnostic :=
    congrArg (diagnosticState f.state _) (decide_eq_decide.mpr hback)
  change (⟨_, _, _, _, _, _⟩ : Outcome ℝ) = ⟨_, _, _, _, _, _⟩
  congr 1

variable [WordSource σ]

theorem step_moved (hsensor : t.sensor.IsMoved a sensor) (carrier : Carrier)
    (start : ℝ) (f : Flight ℝ σ) :
    (t.moved a sensor).step carrier start (f.moved a) =
      StepReport.moved a <$> t.step carrier start f := by
  have hvelocity (p : Vec3 ℝ) :
      (t.moved a sensor).velocity carrier (p + a) = t.velocity carrier p :=
    velocity_moved carrier p
  have hdrift := Motion.advance_moved hvelocity f.motion t.tableau
  unfold step
  simp only [map_bind]
  change ((f.motion.moved a).advance t.tableau _ >>= _) = _
  rw [hdrift, bind_map_left]
  refine bind_congr fun drift => ?_
  simp only [Increment.moved, Motion.moved, electric_moved, doping_moved]
  refine bind_congr fun efield => bind_congr fun near => ?_
  -- Diffusion reads no position.
  have hdiffuse : diffuse (f.moved a).source
        ((t.moved a sensor).models.mobility.evaluate carrier efield.norm near)
        (t.moved a sensor).config.temperature (f.moved a).motion.timestep =
      diffuse f.source (t.models.mobility.evaluate carrier efield.norm near)
        t.config.temperature f.motion.timestep :=
    rfl
  rw [hdiffuse]
  cases diffuse f.source (t.models.mobility.evaluate carrier efield.norm near)
      t.config.temperature f.motion.timestep with
  | none => rfl
  | some drawn =>
      obtain ⟨spread, source⟩ := drawn
      have hplace : drift.after.position + a + spread.displacement =
          drift.after.position + spread.displacement + a :=
        add_right_comm _ _ _
      have htop : sensor.topFace -
            (drift.after.position + spread.displacement + a).z =
          t.sensor.topFace - (drift.after.position + spread.displacement).z := by
        rw [hsensor.topFace, Vec3.add_z _ a, add_sub_add_right_eq_sub]
      simp only [hplace, doping_moved, map_bind]
      refine bind_congr fun far => ?_
      have hexited := hsensor.contains_add
        (drift.after.position + spread.displacement)
      change Except.ok _ = Except.ok (StepReport.mk _ _ _ _ _ _ _ _ _ _ _)
      congr 2
      · exact congrArg (!·) hexited
      · exact congrArg (t.config.nextTimestep? _ · _ _) htop

theorem trace_moved (hsensor : t.sensor.IsMoved a sensor) (carrier : Carrier)
    (start : ℝ) (budget : Nat) (f : Flight ℝ σ) :
    (t.moved a sensor).trace carrier start budget (f.moved a) =
      (Flight.moved a <$> (t.trace carrier start budget f).1,
        (t.trace carrier start budget f).2.map (StepReport.moved a)) := by
  apply trace_of_images
  · intro f
    rfl
  · exact step_moved hsensor carrier start
  · exact StepReport.after?_moved a

/-- In exact arithmetic a run does not depend on where the sensor is.  In a
sensor that was moved with its fields, a group that is deposited as much further
on ends as far from where it ended, at the same time, with the same gain, after
as many steps, under the same states and with the same numbers drawn; a recorder
keeps the same points, moved.  A box that is placed at another center is moved in
this way. -/
theorem propagate_moved :
    (∀ (t : Transport ℝ) (a : Vec3 ℝ) (sensor : Sensor ℝ),
      t.sensor.IsMoved a sensor →
      ∀ (carrier : Carrier) (position : Vec3 ℝ) (start : ℝ) (budget : Nat)
        (recorder : Option (Recorder ℝ)) (source : σ)
        (threshold threshold' : Option Level),
        (((t.moved a sensor).propagate budget carrier (position + a) start
          (recorder.map (·.moved a)) source).runFrom threshold).1 =
          (fun (o, recorder, source) =>
            (o.moved a, recorder.map (·.moved a), source)) <$>
          ((t.propagate budget carrier position start recorder
            source).runFrom threshold').1) ∧
    ∀ (b : Box ℝ) (center : Vec3 ℝ) (offset offset' : Option (Vec3 ℝ)),
      (b.sensor offset).IsMoved (center - b.center)
        ((b.withCenter center).sensor offset') := by
  refine ⟨?_, Box.isMoved_withCenter⟩
  intro t a sensor hsensor carrier position start budget recorder source
    threshold threshold'
  have htrace (efield : Vec3 ℝ) :
      (t.moved a sensor).trace carrier start budget
          ((t.moved a sensor).launch (position + a) efield.norm source) = _ :=
    trace_moved hsensor carrier start budget
      (t.launch position efield.norm source)
  rw [(propagate_gives _ _ _ _ _ _ _).runFrom,
    (propagate_gives _ _ _ _ _ _ _).runFrom, electric_moved, map_bind]
  refine bind_congr fun efield => ?_
  dsimp only
  rw [htrace, bind_map_left, map_bind]
  refine bind_congr fun f => congrArg Except.ok ?_
  rw [outcome_moved hsensor]
  cases recorder with
  | none => rfl
  | some recorder =>
      exact Prod.ext rfl
        (Prod.ext (congrArg some (recorder.follow_moved a _)) rfl)

/-- The releasing layer, one millimetre further up. -/
noncomputable def raisedLayer : Transport ℝ :=
  releasingLayer.moved ⟨0, 0, 1⟩
    ((Box.withCenter ⟨.zero, ⟨2.0, 2.0, 0.3⟩⟩ ⟨0, 0, 1⟩).sensor none)

theorem propagate_moved_raisedLayer :
    ∃ o recorder source,
      (releasingLayer.propagate 1 .electron .zero 24.9995
        (some (.start 0.5)) middleWords).result = .ok (o, recorder, source) ∧
      o.steps = 1 ∧
      (raisedLayer.propagate 1 .electron ⟨0, 0, 1⟩ 24.9995
        (some (.start 0.5)) middleWords).result =
          .ok (o.moved ⟨0, 0, 1⟩, recorder.map (·.moved ⟨0, 0, 1⟩), source) := by
  obtain ⟨o, recorder, source, hrun, hone⟩ :=
    exists_run_releasingLayer (some (.start 0.5))
  obtain ⟨hmoved, hbox⟩ := propagate_moved (σ := CyclicWords)
  have hsensor := hbox ⟨.zero, ⟨2.0, 2.0, 0.3⟩⟩ ⟨0, 0, 1⟩ none none
  have hoffset : (⟨0, 0, 1⟩ : Vec3 ℝ) - .zero = ⟨0, 0, 1⟩ := sub_zero _
  have hplace : (.zero : Vec3 ℝ) + ⟨0, 0, 1⟩ = ⟨0, 0, 1⟩ := zero_add _
  rw [hoffset] at hsensor
  have hraised := hmoved releasingLayer ⟨0, 0, 1⟩ _ hsensor .electron .zero
    24.9995 1 (some (.start 0.5)) middleWords none none
  change (raisedLayer.propagate _ _ _ _ _ _).result =
    _ <$> (releasingLayer.propagate _ _ _ _ _ _).result at hraised
  rw [hrun, hplace, Option.map_some, Recorder.moved_start] at hraised
  exact ⟨o, recorder, source, hrun, hone, hraised⟩

end Transport

end CarrierTransport
