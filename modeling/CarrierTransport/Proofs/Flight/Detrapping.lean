import CarrierTransport.Proofs.Flight.Congruence

/-!
# Releases

How long captured groups stay is a matter of time alone: under another model of
detrapping, courses of as many steps lead through the same places with the same
timesteps, and the same random numbers are left.
-/

namespace CarrierTransport

variable {α σ : Type}

def Config.withDetrapping (c : Config α) (name : String)
    (times : PerCarrier (Option α)) : Config α :=
  { c with
    detrappingModel := name
    parameters := { c.parameters with detrappingTime := times } }

namespace Transport

/-- The same transport with another model of detrapping, as a configuration
names it. -/
def withDetrapping (t : Transport α) (name : String)
    (times : PerCarrier (Option α)) (detrapping : Detrapping α) :
    Transport α :=
  { t with
    config := t.config.withDetrapping name times
    models := { t.models with detrapping := detrapping } }

variable (t : Transport α) (name : String) (times : PerCarrier (Option α))
variable (detrapping : Detrapping α)

@[simp] theorem tableau_withDetrapping :
    (t.withDetrapping name times detrapping).tableau = t.tableau := rfl

@[simp] theorem mobility_withDetrapping :
    (t.withDetrapping name times detrapping).models.mobility =
      t.models.mobility := rfl

@[simp] theorem temperature_withDetrapping :
    (t.withDetrapping name times detrapping).config.temperature =
      t.config.temperature := rfl

end Transport

/-! ## Without time -/

variable [Scalar α]

def Motion.untimed (m : Motion α) : Motion α := { m with time := 0.0 }

def Increment.untimed (i : Increment α) : Increment α :=
  { i with after := i.after.untimed }

/-- A flight but for its time and for whether it has ended. -/
def Flight.untimed (f : Flight α σ) : Flight α σ :=
  { f with motion := f.motion.untimed, state := .motion }

def StepReport.untimed (r : StepReport α σ) : StepReport α σ :=
  { r with
    before := r.before.untimed
    drift := r.drift.untimed
    capture := .free }

theorem StepReport.after?_untimed {r q : StepReport α σ}
    (h : q.untimed = r.untimed) :
    q.after?.map Flight.untimed = r.after?.map Flight.untimed := by
  have hafter (r : StepReport α σ) : r.untimed.after?.map Flight.untimed =
      r.after?.map Flight.untimed := by
    simp only [after?, Option.map_map]
    rfl
  rw [← hafter q, h, hafter r]

namespace Motion

variable {velocity : Vec3 α → Except Fault (Vec3 α)} {m n : Motion α}

/-- A velocity that does not depend on the time moves all stages alike. -/
theorem stages_untimed (h : n.untimed = m.untimed)
    (stages : List (α × List α)) (taken : List (Vec3 α)) :
    n.stages (fun _ p => velocity p) stages taken =
      m.stages (fun _ p => velocity p) stages taken := by
  obtain ⟨position, time, timestep⟩ := m
  obtain ⟨_, time', _⟩ := n
  cases h
  induction stages generalizing taken with
  | nil => rfl
  | cons stage stages ih =>
      obtain ⟨node, weights⟩ := stage
      exact bind_congr fun v => ih _

theorem advance_untimed (h : n.untimed = m.untimed) (tableau : Tableau α) :
    Increment.untimed <$> n.advance tableau (fun _ p => velocity p) =
      Increment.untimed <$> m.advance tableau (fun _ p => velocity p) := by
  unfold advance
  rw [stages_untimed h]
  obtain ⟨position, time, timestep⟩ := m
  obtain ⟨_, time', _⟩ := n
  cases h
  simp only [map_bind]
  exact bind_congr fun taken => rfl

end Motion

namespace Transport

variable [WordSource σ]
variable (t : Transport α) (name : String) (times : PerCarrier (Option α))
variable (detrapping : Detrapping α) (carrier : Carrier) (start : α)

/-- A captured group draws one number more, whatever it waits for. -/
theorem source_drawCapture (time timestep : α) (source : σ) :
    (t.drawCapture carrier start time timestep source).2 =
      if t.models.trapping.captures carrier
          (Random.uniform (α := α) source).1 timestep then
        (Random.uniform (α := α) (Random.uniform (α := α) source).2).2
      else (Random.uniform (α := α) source).2 := by
  unfold drawCapture
  dsimp only
  split <;> rfl

theorem source_withDetrapping (time time' timestep : α) (source : σ) :
    ((t.withDetrapping name times detrapping).drawCapture carrier start time'
        timestep source).2 =
      (t.drawCapture carrier start time timestep source).2 := by
  rw [source_drawCapture, source_drawCapture]
  rfl

theorem step_untimed {f g : Flight α σ} (h : g.untimed = f.untimed) :
    StepReport.untimed <$>
        (t.withDetrapping name times detrapping).step carrier start g =
      StepReport.untimed <$> t.step carrier start f := by
  obtain ⟨⟨position, time, timestep⟩, lastPosition, efield, gain, steps, state,
    source⟩ := f
  obtain ⟨⟨_, time', _⟩, _, _, _, _, state', _⟩ := g
  cases h
  unfold step
  -- The time enters the time after the drift and the capture, nothing else.
  simp only [map_bind]
  refine bind_congr_of_map (Motion.advance_untimed
    (n := ⟨position, time', timestep⟩) (m := ⟨position, time, timestep⟩) rfl
    t.tableau) ?_
  rintro ⟨⟨drifted, late, _⟩, moved, error⟩ ⟨⟨_, early, _⟩, _, _⟩ hdrift
  cases hdrift
  refine bind_congr fun e => bind_congr fun near => ?_
  simp only [mobility_withDetrapping, temperature_withDetrapping]
  cases diffuse source (t.models.mobility.evaluate carrier e.norm near)
      t.config.temperature timestep with
  | none => rfl
  | some drawn =>
      simp only [map_bind]
      refine bind_congr fun far => ?_
      have hsource := t.source_withDetrapping name times detrapping carrier
        start early late timestep (Random.uniform (α := α) drawn.2).2
      simp only [hsource]
      rfl

theorem mirrors_withDetrapping :
    t.Mirrors (t.withDetrapping name times detrapping) carrier start
      (Flight.untimed (σ := σ)) StepReport.untimed where
  step _ _ := t.step_untimed name times detrapping carrier start
  after _ _ := StepReport.after?_untimed

end Transport

end CarrierTransport
